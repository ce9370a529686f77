import Runbook.Proofs.Order.Linearization
import Runbook.Proofs.Order.Numbering
import Mathlib.Data.Finset.Card

/-!
# Placement by recursion

The plain recursive reading of an order: a node is placed after its dependencies have been visited in
turn, and a node that is met while it is being visited ends the recursion with the loop that led back
to it.  Working off a stack of open nodes is running what is left of the calls that are open, so the
stack gives the answer of the recursion, arrangements and loops alike.
-/

namespace Runbook.Order

variable {V : Type} {order : Order V}

/-! ## Visiting by recursion -/

def waiting (order : Order V) : Finset Nat := (order.links.toList.map (·.target)).toFinset

private theorem mem_waiting_of_dependency {place dependency : Nat}
    (h : dependency ∈ order.dependenciesAt place) : place ∈ order.waiting := by
  obtain ⟨link, hlink, -, rfl⟩ := mem_dependenciesAt.mp h
  rw [waiting, List.mem_toFinset]
  exact List.mem_map_of_mem (Array.mem_toList_iff.mpr hlink)

private theorem card_waiting_lt {path : List Nat} {place dependency : Nat} (hnew : place ∉ path)
    (h : dependency ∈ order.dependenciesAt place) :
    (order.waiting \ (place :: path).toFinset).card < (order.waiting \ path.toFinset).card := by
  refine Finset.card_lt_card ((Finset.ssubset_iff_of_subset ?_).mpr ⟨place, ?_, by simp⟩)
  · exact Finset.sdiff_subset_sdiff (Finset.Subset.refl _) (by simp)
  · simpa [hnew] using mem_waiting_of_dependency h

/-- Visits a node.  `path` holds the nodes that are being visited, innermost first, and `emitted`
those that are finished, in their order. -/
def visitNode (order : Order V) (path emitted : List Nat) (place : Nat) :
    Except (List Nat) (List Nat) :=
  if place ∈ emitted then .ok emitted
  else if place ∈ path then .error (path.takeWhile (· ≠ place) ++ [place])
  else do
    let emitted ← (order.dependenciesAt place).attach.foldlM
      (fun emitted dependency => order.visitNode (place :: path) emitted dependency.1) emitted
    return emitted ++ [place]
termination_by (order.waiting \ path.toFinset).card
decreasing_by exact card_waiting_lt ‹_› dependency.2

def visitNodes (order : Order V) (path emitted places : List Nat) :
    Except (List Nat) (List Nat) :=
  places.foldlM (order.visitNode path) emitted

def linearizeByVisits (order : Order V) : Except OrderError (List Nat) :=
  match order.visitNodes [] [] (List.range order.nodeCount) with
  | .ok emitted => .ok emitted
  | .error loop => .error (.cycleDetected (loop.filterMap order.keyAt?))

section

variable {path emitted : List Nat} {place : Nat}

theorem visitNode_of_emitted (h : place ∈ emitted) :
    order.visitNode path emitted place = .ok emitted := by
  rw [visitNode, if_pos h]

private theorem visitNode_of_path (hnew : place ∉ emitted) (h : place ∈ path) :
    order.visitNode path emitted place =
      .error (path.takeWhile (· ≠ place) ++ [place]) := by
  rw [visitNode, if_neg hnew, if_pos h]

theorem visitNode_of_new (hnew : place ∉ emitted) (hpath : place ∉ path) :
    order.visitNode path emitted place = (do
      let emitted ← order.visitNodes (place :: path) emitted (order.dependenciesAt place)
      return emitted ++ [place]) := by
  rw [visitNode, if_neg hnew, if_neg hpath, visitNodes,
    List.foldlM_subtype (g := order.visitNode (place :: path)) fun _ _ _ => rfl,
    List.unattach_attach]

end

/-! ## Open calls -/

/-- What is left of the calls that a stack of open nodes stands for, the innermost one first: each
visits its pending dependencies, and then its own node is finished. -/
def resume (order : Order V) : List Frame → List Nat → Except (List Nat) (List Nat)
  | [], emitted => .ok emitted
  | frame :: stack, emitted => do
    let emitted ← order.visitNodes (frame.place :: stack.map (·.place)) emitted frame.pending
    order.resume stack (emitted ++ [frame.place])

theorem resume_cons (frame : Frame) (stack : List Frame) (emitted : List Nat) :
    order.resume (frame :: stack) emitted =
      order.visitNodes (frame.place :: stack.map (·.place)) emitted frame.pending >>=
        fun emitted => order.resume stack (emitted ++ [frame.place]) := rfl

theorem visitNodes_cons (path emitted : List Nat) (place : Nat) (places : List Nat) :
    order.visitNodes path emitted (place :: places) =
      order.visitNode path emitted place >>= fun emitted =>
        order.visitNodes path emitted places :=
  List.foldlM_cons ..

private theorem openBackTo_eq {place : Nat} {stack : List Frame} (h : place ∈ stack.map (·.place)) :
    openBackTo place stack = (stack.map (·.place)).takeWhile (· ≠ place) ++ [place] := by
  induction stack with
  | nil => simp at h
  | cons frame stack ih =>
      rw [openBackTo, List.map_cons, List.takeWhile_cons]
      by_cases hplace : frame.place = place
      · simp [hplace]
      · have hrest := (List.mem_cons.mp h).resolve_left (Ne.symm hplace)
        simp [hplace, ih hrest]

theorem Places.resume_eq {stack : List Frame} {placed : List Nat}
    {outcome : Except (List Nat) (List Nat)} (h : Places order stack placed outcome) :
    order.resume stack placed.reverse = outcome.map List.reverse := by
  induction h with
  | done placed => rfl
  | close _ ih =>
      rw [← ih, List.reverse_cons]
      rfl
  | skip hplaced _ ih =>
      rw [← ih, resume_cons, resume_cons, visitNodes_cons,
        visitNode_of_emitted (List.mem_reverse.mpr hplaced)]
      rfl
  | @loop place next pending stack placed hnew hnext =>
      have hpath : next ∈ place :: stack.map (·.place) := by
        simpa [eq_comm] using hnext
      have hloop : openBackTo next (⟨place, pending⟩ :: stack) =
          (place :: stack.map (·.place)).takeWhile (· ≠ next) ++ [next] := openBackTo_eq hpath
      rw [hloop, resume_cons, visitNodes_cons,
        visitNode_of_path (mt List.mem_reverse.mp hnew) hpath]
      rfl
  | @enter place next pending stack placed outcome hnew hself hstack _ ih =>
      have hpath : next ∉ place :: stack.map (·.place) := by
        simpa [eq_comm, hself] using hstack
      rw [← ih, resume_cons, resume_cons, visitNodes_cons,
        visitNode_of_new (mt List.mem_reverse.mp hnew) hpath]
      simp only [bind_assoc, pure_bind, resume_cons, List.map_cons]

theorem Places.visitNode_eq {root : Nat} {placed : List Nat}
    {outcome : Except (List Nat) (List Nat)} (hnew : root ∉ placed)
    (h : Places order [⟨root, order.dependenciesAt root⟩] placed outcome) :
    order.visitNode [] placed.reverse root = outcome.map List.reverse := by
  rw [← h.resume_eq, visitNode_of_new (mt List.mem_reverse.mp hnew) List.not_mem_nil]
  rfl

theorem PlacesAll.visitNodes_eq {roots placed : List Nat}
    {outcome : Except (List Nat) (List Nat)} (h : PlacesAll order roots placed outcome) :
    order.visitNodes [] placed.reverse roots = outcome.map List.reverse := by
  induction h with
  | done placed => rfl
  | known hplaced _ ih =>
      rw [visitNodes_cons, visitNode_of_emitted (List.mem_reverse.mpr hplaced)]
      exact ih
  | found hnew hrun _ ih =>
      rw [visitNodes_cons, hrun.visitNode_eq hnew]
      exact ih
  | loop hnew hrun =>
      rw [visitNodes_cons, hrun.visitNode_eq hnew]
      rfl

theorem WellFormed.linearize_eq (hwell : order.WellFormed) :
    order.linearize = order.linearizeByVisits := by
  obtain ⟨run, hrun, hanswer⟩ := (hwell.linearizes_iff _).mpr rfl
  have hvisits := hrun.visitNodes_eq
  rw [List.reverse_nil] at hvisits
  rw [hanswer, linearizeByVisits, hvisits]
  cases run <;> rfl

/-! ## Dependencies by age -/

private theorem firsts_sources {links : List Link}
    (h : links.Pairwise fun older newer => older.id < newer.id) :
    (firsts (links.map (·.source))).Pairwise fun first second =>
      ∃ link ∈ links, link.source = first ∧
        ∀ other ∈ links, other.source = second → link.id < other.id := by
  induction links using List.reverseRecOn with
  | nil => exact List.Pairwise.nil
  | append_singleton links newest ih =>
      obtain ⟨hlinks, -, hnewest⟩ := List.pairwise_append.mp h
      have hlater : ∀ link ∈ links, link.id < newest.id := fun link hlink =>
        hnewest link hlink newest (List.mem_singleton.mpr rfl)
      have hknown := (ih hlinks).imp fun {first second} ⟨link, hlink, hfirst, holder⟩ =>
        show ∃ link ∈ links ++ [newest], link.source = first ∧
            ∀ other ∈ links ++ [newest], other.source = second → link.id < other.id by
          refine ⟨link, List.mem_append_left _ hlink, hfirst, fun other hother hsecond => ?_⟩
          rcases List.mem_append.mp hother with hother | hother
          · exact holder other hother hsecond
          · exact List.mem_singleton.mp hother ▸ hlater link hlink
      rw [List.map_append, List.map_singleton, firsts_concat]
      split
      · exact hknown
      · next hnew =>
        rw [mem_firsts] at hnew
        refine List.pairwise_append.mpr ⟨hknown, List.pairwise_singleton _ _, ?_⟩
        intro first hfirst second hsecond
        obtain ⟨link, hlink, rfl⟩ := List.mem_map.mp (mem_firsts.mp hfirst)
        refine ⟨link, List.mem_append_left _ hlink, rfl, fun other hother hsame => ?_⟩
        rw [List.mem_singleton.mp hsecond] at hsame
        rcases List.mem_append.mp hother with hother | hother
        · exact absurd (hsame ▸ List.mem_map_of_mem hother) hnew
        · exact List.mem_singleton.mp hother ▸ hlater link hlink

def LinkedEarlier (order : Order V) (target first second : Nat) : Prop :=
  ∃ link ∈ order.links, link.source = first ∧ link.target = target ∧
    ∀ other ∈ order.links, other.source = second → other.target = target → link.id < other.id

theorem Aged.dependencies (h : order.Aged) (place : Nat) :
    (order.dependenciesAt place).Pairwise (order.LinkedEarlier place) := by
  refine (firsts_sources (h.ascending.filter (·.target = place))).imp ?_
  rintro first second ⟨link, hlink, hfirst, holder⟩
  obtain ⟨hlink, htarget⟩ := List.mem_filter.mp hlink
  refine ⟨link, Array.mem_toList_iff.mp hlink, hfirst, of_decide_eq_true htarget, ?_⟩
  intro other hother hsecond hsame
  exact holder other
    (List.mem_filter.mpr ⟨Array.mem_toList_iff.mpr hother, decide_eq_true hsame⟩) hsecond

/-- Linearizing a reachable order gives what the plain recursion gives: the nodes are visited by
creation, each one after its dependencies, and a node that is met while it is being visited ends the
recursion with the keys back to it.  The dependencies of a node are the nodes that links in force
lead from, each once, by their oldest link. -/
theorem Reachable.linearizes_by_visits [BEq V] (h : Reachable order) :
    order.linearize = order.linearizeByVisits ∧ order.arrange.1 = order.linearizeByVisits ∧
    ∀ place, (order.dependenciesAt place).Nodup ∧
      (∀ source, source ∈ order.dependenciesAt place ↔ order.Linked source place) ∧
      (order.dependenciesAt place).Pairwise (order.LinkedEarlier place) := by
  have hlinearize := h.wellFormed.linearize_eq
  refine ⟨hlinearize, h.wellFormed.arrange_eq.trans hlinearize, fun place => ?_⟩
  exact ⟨order.dependenciesAt_nodup place, fun source => mem_dependenciesAt,
    h.aged.dependencies place⟩

theorem linearizes_by_visits_diamond :
    ∃ diamond closed : Order Nat, Reachable diamond ∧ Reachable closed ∧
      diamond.keys = [.constant "b", .constant "a", .constant "c", .constant "d"] ∧
      diamond.linearizeByVisits = .ok [3, 0, 2, 1] ∧
      closed.linearizeByVisits =
        .error (.cycleDetected [.constant "a", .constant "d", .constant "b"]) := by
  let link (source target : String) : Edit Nat :=
    .link (.key (.constant source)) (.key (.constant target))
  let edits := [link "b" "a", link "c" "a", link "c" "a", link "d" "b", link "d" "c"]
  have hdiamond : Reachable (Order.empty.edited edits) := Reachable.empty.edited edits
  have hclosed := hdiamond.edit (link "a" "d")
  exact ⟨_, _, hdiamond, hclosed, by cbv, hdiamond.linearizes_by_visits.1.symm.trans (by cbv),
    hclosed.linearizes_by_visits.1.symm.trans (by cbv)⟩

end Runbook.Order
