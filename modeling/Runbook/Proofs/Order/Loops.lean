import Runbook.Proofs.Order.Reads
import Runbook.Proofs.Order.Paths
import Runbook.Proofs.Order.Ledger
import Mathlib.Data.List.Chain

/-!
# Loops

A placement fails only where it meets a loop: the open nodes, from the innermost one back to the one
that it waits for.  Each of them is linked to the next one, and the last one to the first.  So a read
that fails names the keys of one loop and no others.
-/

namespace Runbook.Order

variable {V : Type} {order : Order V}

/-- Members that are joined each to the next one and the last one to the first, each of them once. -/
structure Loop {α : Type} (joins : α → α → Prop) (members : List α) : Prop where
  nonempty : members ≠ []
  once : members.Nodup
  chain : members.IsChain joins
  closed : joins (members.getLast nonempty) (members.head nonempty)

theorem Loop.map {α β : Type} {joins : α → α → Prop} {others : β → β → Prop} {members : List α}
    (h : Loop joins members) {view : α → β}
    (hview : ∀ first ∈ members, ∀ second ∈ members, view first = view second → first = second)
    (hjoins : ∀ first second, joins first second → others (view first) (view second)) :
    Loop others (members.map view) where
  nonempty := by simpa using h.nonempty
  once := h.once.map_on hview
  chain := List.isChain_map_of_isChain view hjoins h.chain
  closed := by
    rw [List.getLast_map, List.head_map]
    exact hjoins _ _ h.closed

/-! ## Open nodes -/

theorem openBackTo_initial (place : Nat) (stack : List Frame) :
    openBackTo place stack <+: stack.map (·.place) := by
  induction stack with
  | nil => exact List.prefix_rfl
  | cons frame stack ih =>
      rw [openBackTo, List.map_cons]
      split
      · exact List.prefix_append [frame.place] _
      · exact (List.prefix_cons_inj _).mpr ih

private theorem openBackTo_cons (place : Nat) (frame : Frame) (stack : List Frame) :
    ∃ others, openBackTo place (frame :: stack) = frame.place :: others := by
  rw [openBackTo]
  split
  · exact ⟨[], rfl⟩
  · exact ⟨_, rfl⟩

private theorem getLast?_openBackTo {place : Nat} {stack : List Frame}
    (h : ∃ frame ∈ stack, frame.place = place) :
    (openBackTo place stack).getLast? = some place := by
  induction stack with
  | nil => simp at h
  | cons frame stack ih =>
      rw [openBackTo]
      split
      · next hplace => rw [hplace, List.getLast?_singleton]
      · next hplace =>
        obtain ⟨other, hmem, hother⟩ := h
        have hrest : ∃ other ∈ stack, other.place = place := by
          rcases List.mem_cons.mp hmem with rfl | hmem
          · exact absurd hother hplace
          · exact ⟨other, hmem, hother⟩
        rw [List.getLast?_cons, ih hrest, Option.getD_some]

namespace Open

variable {placed : List Nat} {inner : Option Nat} {stack : List Frame}

theorem nodup (h : Open order placed inner stack) : (stack.map (·.place)).Nodup := by
  induction h with
  | nil => exact List.nodup_nil
  | cons _ _ honce _ _ _ _ ih =>
      refine List.nodup_cons.mpr ⟨fun hmem => ?_, ih⟩
      obtain ⟨other, hother, hsame⟩ := List.mem_map.mp hmem
      exact honce other hother hsame

theorem lt (h : Open order placed inner stack) :
    ∀ place ∈ stack.map (·.place), place < order.nodeCount := by
  induction h with
  | nil => simp
  | cons hlt _ _ _ _ _ _ ih => exact List.forall_mem_cons.mpr ⟨hlt, ih⟩

private theorem isChain (h : Open order placed inner stack) :
    (stack.map (·.place)).IsChain order.Linked := by
  induction h with
  | nil => exact .nil
  | @cons inner frame stack _ _ _ _ _ _ hrest ih =>
      rw [List.map_cons]
      refine List.isChain_cons.mpr ⟨fun place hplace => ?_, ih⟩
      cases hrest with
      | nil => simp at hplace
      | cons _ _ _ _ hlinked =>
          cases hplace
          exact hlinked frame.place rfl

theorem loop {place next : Nat} {pending : List Nat}
    (h : Open order placed none (⟨place, next :: pending⟩ :: stack))
    (hnext : place = next ∨ ∃ frame ∈ stack, frame.place = next) :
    Loop order.Linked (openBackTo next (⟨place, pending⟩ :: stack)) := by
  obtain ⟨others, hothers⟩ := openBackTo_cons next ⟨place, pending⟩ stack
  have hopen : openBackTo next (⟨place, pending⟩ :: stack) <+:
      (⟨place, next :: pending⟩ :: stack).map (·.place) := openBackTo_initial ..
  have hlast : (openBackTo next (⟨place, pending⟩ :: stack)).getLast? = some next :=
    getLast?_openBackTo (by simpa using hnext)
  have hlinked : order.Linked next place := by
    cases h with
    | cons _ _ _ hpending => exact hpending next List.mem_cons_self
  have hnonempty : openBackTo next (⟨place, pending⟩ :: stack) ≠ [] := by simp [hothers]
  refine ⟨hnonempty, h.nodup.sublist hopen.sublist, h.isChain.prefix hopen, ?_⟩
  rw [Option.some.inj ((List.getLast?_eq_some_getLast hnonempty).symm.trans hlast)]
  simpa only [hothers, List.head_cons] using hlinked

end Open

/-! ## Runs that fail -/

theorem Places.meets (hwell : order.WellFormed) {stack : List Frame} {placed loop : List Nat}
    {outcome : Except (List Nat) (List Nat)} (h : Places order stack placed outcome)
    (hopen : Open order placed none stack) (hfailed : outcome = .error loop) :
    Loop order.Linked loop ∧ ∀ place ∈ loop, place < order.nodeCount := by
  induction h with
  | done placed => cases hfailed
  | close _ ih =>
      cases hopen with
      | cons _ _ honce _ _ _ hrest => exact ih (hrest.finish honce) hfailed
  | skip hplaced _ ih => exact ih (hopen.skip hplaced) hfailed
  | @loop place next pending stack placed hnew hnext =>
      cases hfailed
      refine ⟨hopen.loop hnext, fun member hmember => hopen.lt member ?_⟩
      exact (openBackTo_initial next (⟨place, pending⟩ :: stack)).subset hmember
  | enter hnew hself hstack _ ih => exact ih (hopen.enter hwell hnew hself hstack) hfailed

theorem PlacesAll.meets (hwell : order.WellFormed) {roots placed loop : List Nat}
    {outcome : Except (List Nat) (List Nat)} (h : PlacesAll order roots placed outcome)
    (hroots : ∀ root ∈ roots, root < order.nodeCount) (hfailed : outcome = .error loop) :
    Loop order.Linked loop ∧ ∀ place ∈ loop, place < order.nodeCount := by
  induction h with
  | done placed => cases hfailed
  | known _ _ ih => exact ih (List.forall_mem_cons.mp hroots).2 hfailed
  | found _ _ _ ih => exact ih (List.forall_mem_cons.mp hroots).2 hfailed
  | loop hnew hrun =>
      exact hrun.meets hwell (Open.root (List.forall_mem_cons.mp hroots).1 hnew) hfailed

/-! ## Keys of a loop -/

def Joins (order : Order V) (source target : Key) : Prop :=
  ∃ id, order.InForce (.link ⟨id, source, target⟩)

theorem Linked.joins {source target : Nat} {first second : Key} (h : order.Linked source target)
    (hfirst : order.keyAt? source = some first) (hsecond : order.keyAt? target = some second) :
    order.Joins first second := by
  obtain ⟨link, hlink, rfl, rfl⟩ := h
  exact ⟨link.id, link, hlink, rfl, hfirst, hsecond⟩

theorem WellFormed.loop_keys (hwell : order.WellFormed) {loop : List Nat}
    (hloop : Loop order.Linked loop) (hlt : ∀ place ∈ loop, place < order.nodeCount) :
    Loop order.Joins (loop.filterMap order.keyAt?) := by
  let key : Nat → Key := fun place => (order.keyAt? place).getD default
  have hkey : ∀ place, place < order.nodeCount → order.keyAt? place = some (key place) := by
    intro place hplace
    obtain ⟨node, -, hnode, -⟩ := keyAt?_of_lt hplace
    simp only [key, hnode, Option.getD_some]
  have hkeys : loop.filterMap order.keyAt? = loop.map key := by
    rw [← List.filterMap_eq_map]
    exact List.filterMap_congr fun place hplace => hkey place (hlt place hplace)
  rw [hkeys]
  refine hloop.map ?_ fun first second hlinked => ?_
  · intro first hfirst second hsecond hsame
    have hother := hkey second (hlt second hsecond)
    rw [← hsame] at hother
    exact hwell.place_unique (hkey first (hlt first hfirst)) hother
  · obtain ⟨hfirst, hsecond⟩ := hwell.linked_lt hlinked
    exact hlinked.joins (hkey first hfirst) (hkey second hsecond)

theorem WellFormed.linearize_loop (hwell : order.WellFormed) {error : OrderError}
    (h : order.linearize = .error error) :
    ∃ keys, error = .cycleDetected keys ∧ Loop order.Joins keys := by
  obtain ⟨run, hrun, hanswer⟩ := (hwell.linearizes_iff _).mpr rfl
  rw [h] at hanswer
  cases run with
  | ok placed => cases hanswer
  | error loop =>
      cases hanswer
      obtain ⟨hloop, hlt⟩ := hrun.meets hwell (by simp) rfl
      exact ⟨_, rfl, hwell.loop_keys hloop hlt⟩

/-- A read of a reachable order fails only with the keys of a loop: there is at least one, none comes
twice, a link in force leads from each to the next, and one leads from the last to the first. -/
theorem Reachable.failed_read [BEq V] (h : Reachable order) (read : Read V) {error : OrderError}
    (hfailed : (read.run order).1 = .error error) :
    ∃ keys, error = .cycleDetected keys ∧ Loop order.Joins keys := by
  rw [read.run_of_wellFormed h.wellFormed] at hfailed
  cases hlinearize : order.linearize with
  | ok places =>
      rw [hlinearize] at hfailed
      cases hfailed
  | error own =>
      rw [hlinearize] at hfailed
      cases hfailed
      exact h.wellFormed.linearize_loop hlinearize

theorem failed_read_outside_loop :
    ∃ order : Order Nat, Reachable order ∧
      order.dependencies (.constant "a") = [.constant "b"] ∧
      (Read.toLinearList.run order).1 =
        (.error (.cycleDetected [.constant "c", .constant "b"]) : Except OrderError (List Nat)) ∧
      Loop order.Joins [.constant "c", .constant "b"] := by
  let edits : List (Edit Nat) :=
    [.register (.key (.constant "a")) 1,
      .link (.key (.constant "b")) (.key (.constant "a")),
      .link (.key (.constant "a")) (.key (.constant "c")),
      .unregister (.link ⟨1, .constant "a", .constant "c"⟩),
      .sequence [.key (.constant "c")] [.expect (.key (.constant "b"))],
      .link (.key (.constant "b")) (.key (.constant "c"))]
  have hreachable : Reachable (Order.empty.edited edits) := Reachable.empty.edited edits
  have hfailed : (Read.toLinearList.run (Order.empty.edited edits)).1 =
      (.error (.cycleDetected [.constant "c", .constant "b"]) : Except OrderError (List Nat)) := by
    cbv
  obtain ⟨keys, hkeys, hloop⟩ := hreachable.failed_read .toLinearList hfailed
  cases hkeys
  exact ⟨_, hreachable, by cbv, hfailed, hloop⟩

end Runbook.Order
