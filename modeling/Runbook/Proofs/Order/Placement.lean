import Runbook.Proofs.Order.Graph

/-!
# Placement

The stack of open nodes is worked off within the bound on its moves.  The finished places always
come after what they wait for, and the open nodes form a path of links, which a node that waits for
an open one closes to a loop.
-/

namespace Runbook.Order

open Relation

variable {V : Type} {order : Order V}

/-! ## Runs without a bound -/

/-- The run of a placement from a stack and finished places to its outcome, move by move. -/
inductive Places (order : Order V) :
    List Frame → List Nat → Except (List Nat) (List Nat) → Prop where
  | done (placed : List Nat) : Places order [] placed (.ok placed)
  | close {place stack placed outcome} :
      Places order stack (place :: placed) outcome →
      Places order (⟨place, []⟩ :: stack) placed outcome
  | skip {place next pending stack placed outcome} :
      next ∈ placed →
      Places order (⟨place, pending⟩ :: stack) placed outcome →
      Places order (⟨place, next :: pending⟩ :: stack) placed outcome
  | loop {place next pending stack placed} :
      next ∉ placed → (place = next ∨ ∃ frame ∈ stack, frame.place = next) →
      Places order (⟨place, next :: pending⟩ :: stack) placed
        (.error (openBackTo next (⟨place, pending⟩ :: stack)))
  | enter {place next pending stack placed outcome} :
      next ∉ placed → place ≠ next → (∀ frame ∈ stack, frame.place ≠ next) →
      Places order (⟨next, order.dependenciesAt next⟩ :: ⟨place, pending⟩ :: stack) placed outcome →
      Places order (⟨place, next :: pending⟩ :: stack) placed outcome

/-! ## Invariants -/

/-- Finished places, latest first: each is a node's place, occurs once, and comes after the places
that it waits for. -/
inductive Settled (order : Order V) : List Nat → Prop where
  | nil : Settled order []
  | cons {place placed} :
      place < order.nodeCount → place ∉ placed →
      (∀ source ∈ order.dependenciesAt place, source ∈ placed) →
      Settled order placed → Settled order (place :: placed)

/-- Open nodes, innermost first, below the node that the innermost one was left for.  What an open
node waits for is finished, still to be looked at, or the node that it was left for. -/
inductive Open (order : Order V) (placed : List Nat) : Option Nat → List Frame → Prop where
  | nil (inner : Option Nat) : Open order placed inner []
  | cons {inner frame stack} :
      frame.place < order.nodeCount →
      frame.place ∉ placed →
      (∀ other ∈ stack, other.place ≠ frame.place) →
      (∀ source ∈ frame.pending, order.Linked source frame.place) →
      (∀ source, inner = some source → order.Linked source frame.place) →
      (∀ source ∈ order.dependenciesAt frame.place,
        source ∈ placed ∨ source ∈ frame.pending ∨ inner = some source) →
      Open order placed (some frame.place) stack →
      Open order placed inner (frame :: stack)

theorem Settled.nodup {placed : List Nat} (h : Settled order placed) : placed.Nodup := by
  induction h with
  | nil => exact List.nodup_nil
  | cons _ hnew _ _ ih => exact List.nodup_cons.mpr ⟨hnew, ih⟩

theorem Settled.lt {placed : List Nat} (h : Settled order placed) :
    ∀ place ∈ placed, place < order.nodeCount := by
  induction h with
  | nil => simp
  | cons hlt _ _ _ ih => exact List.forall_mem_cons.mpr ⟨hlt, ih⟩

theorem Open.finish {placed : List Nat} {place : Nat} {stack : List Frame}
    (hother : ∀ frame ∈ stack, frame.place ≠ place)
    (h : Open order placed (some place) stack) : Open order (place :: placed) none stack := by
  have hinner : ∀ {inner stack}, Open order placed inner stack →
      (∀ frame ∈ stack, frame.place ≠ place) → Open order (place :: placed) inner stack := by
    intro inner stack hopen hdifferent
    induction hopen with
    | nil => exact .nil _
    | cons hlt hnew honce hpending hlinked hwaits _ ih =>
        obtain ⟨hframe, hrest⟩ := List.forall_mem_cons.mp hdifferent
        refine .cons hlt (by simp [hframe, hnew]) honce hpending hlinked ?_ (ih hrest)
        intro source hsource
        rcases hwaits source hsource with hplaced | hlater
        · exact .inl (List.mem_cons_of_mem _ hplaced)
        · exact .inr hlater
  cases h with
  | nil => exact .nil _
  | cons hlt hnew honce hpending _ hwaits hrest =>
      obtain ⟨hframe, hdifferent⟩ := List.forall_mem_cons.mp hother
      refine .cons hlt (by simp [hframe, hnew]) honce hpending (by simp) ?_
        (hinner hrest hdifferent)
      intro source hsource
      rcases hwaits source hsource with hplaced | hpending | hinner
      · exact .inl (List.mem_cons_of_mem _ hplaced)
      · exact .inr (.inl hpending)
      · exact .inl (by simp [Option.some.inj hinner])

theorem Open.precedes {placed : List Nat} {place : Nat} {stack : List Frame}
    (h : Open order placed (some place) stack) :
    ∀ frame ∈ stack, order.Precedes place frame.place := by
  induction stack generalizing place with
  | nil => simp
  | cons frame stack ih =>
      cases h with
      | cons _ _ _ _ hlinked _ hrest =>
          have hfirst : order.Precedes place frame.place := .single (hlinked place rfl)
          refine List.forall_mem_cons.mpr ⟨hfirst, ?_⟩
          intro other hother
          exact hfirst.trans (ih hrest other hother)

/-! ## Moves -/

theorem Open.skip {placed : List Nat} {place next : Nat} {pending : List Nat}
    {stack : List Frame} (hplaced : next ∈ placed)
    (h : Open order placed none (⟨place, next :: pending⟩ :: stack)) :
    Open order placed none (⟨place, pending⟩ :: stack) := by
  cases h with
  | cons hlt hnew honce hpending _ hwaits hrest =>
      refine .cons hlt hnew honce (fun source hsource =>
        hpending source (List.mem_cons_of_mem _ hsource)) (by simp) ?_ hrest
      intro source hsource
      rcases hwaits source hsource with hdone | hleft | hinner
      · exact .inl hdone
      · rcases List.mem_cons.mp hleft with rfl | hleft
        · exact .inl hplaced
        · exact .inr (.inl hleft)
      · exact .inr (.inr hinner)

theorem Open.enter (hwell : order.WellFormed) {placed : List Nat} {place next : Nat}
    {pending : List Nat} {stack : List Frame} (hnext : next ∉ placed) (hself : place ≠ next)
    (hstack : ∀ frame ∈ stack, frame.place ≠ next)
    (h : Open order placed none (⟨place, next :: pending⟩ :: stack)) :
    Open order placed none (⟨next, order.dependenciesAt next⟩ :: ⟨place, pending⟩ :: stack) := by
  cases h with
  | cons hlt hnew honce hpending _ hwaits hrest =>
      have hlinked : order.Linked next place := hpending next List.mem_cons_self
      refine .cons (hwell.linked_lt hlinked).1 hnext (List.forall_mem_cons.mpr ⟨hself, hstack⟩)
        (fun source hsource => mem_dependenciesAt.mp hsource) (by simp)
        (fun source hsource => .inr (.inl hsource)) ?_
      refine .cons hlt hnew honce (fun source hsource =>
        hpending source (List.mem_cons_of_mem _ hsource)) ?_ ?_ hrest
      · rintro source ⟨rfl⟩
        exact hlinked
      · intro source hsource
        rcases hwaits source hsource with hdone | hleft | hinner
        · exact .inl hdone
        · rcases List.mem_cons.mp hleft with rfl | hleft
          · exact .inr (.inr rfl)
          · exact .inr (.inl hleft)
        · exact absurd hinner (by simp)

theorem Open.next_lt (hwell : order.WellFormed) {placed : List Nat} {place next : Nat}
    {pending : List Nat} {stack : List Frame}
    (h : Open order placed none (⟨place, next :: pending⟩ :: stack)) :
    next < order.nodeCount := by
  cases h with
  | cons _ _ _ hpending => exact (hwell.linked_lt (hpending next List.mem_cons_self)).1

theorem Open.root {placed : List Nat} {root : Nat} (hlt : root < order.nodeCount)
    (hnew : root ∉ placed) : Open order placed none [⟨root, order.dependenciesAt root⟩] :=
  .cons hlt hnew (by simp) (fun source hsource => mem_dependenciesAt.mp hsource) (by simp)
    (fun source hsource => .inr (.inl hsource)) (.nil _)

/-! ## The number of moves -/

def untouched (order : Order V) (stack : List Frame) (placed : List Nat) : Finset Nat :=
  Finset.range order.nodeCount \ (placed ++ stack.map (·.place)).toFinset

/-- The moves that are left: one for each node that is still to be closed, and one for each of its
dependencies that is still to be looked at. -/
def movesLeft (order : Order V) (stack : List Frame) (placed : List Nat) : Nat :=
  stack.length + (stack.flatMap (·.pending)).length +
    ∑ place ∈ order.untouched stack placed, ((order.dependenciesAt place).length + 1)

theorem mem_untouched {stack : List Frame} {placed : List Nat} {place : Nat} :
    place ∈ order.untouched stack placed ↔
      place < order.nodeCount ∧ place ∉ placed ∧ ∀ frame ∈ stack, frame.place ≠ place := by
  simp [untouched]

private theorem movesLeft_close {place : Nat} {stack : List Frame} {placed : List Nat} :
    order.movesLeft (⟨place, []⟩ :: stack) placed =
      order.movesLeft stack (place :: placed) + 1 := by
  have hsame : order.untouched (⟨place, []⟩ :: stack) placed =
      order.untouched stack (place :: placed) := by
    ext other
    simp only [mem_untouched, List.mem_cons, forall_eq_or_imp]
    tauto
  rw [movesLeft, movesLeft, hsame]
  simp
  omega

private theorem movesLeft_skip {place next : Nat} {pending : List Nat} {stack : List Frame}
    {placed : List Nat} :
    order.movesLeft (⟨place, next :: pending⟩ :: stack) placed =
      order.movesLeft (⟨place, pending⟩ :: stack) placed + 1 := by
  have hsame : order.untouched (⟨place, next :: pending⟩ :: stack) placed =
      order.untouched (⟨place, pending⟩ :: stack) placed := by
    ext other
    simp [mem_untouched]
  rw [movesLeft, movesLeft, hsame]
  simp
  omega

theorem movesLeft_enter {next : Nat} {stack : List Frame} {placed : List Nat}
    (huntouched : next ∈ order.untouched stack placed) :
    order.movesLeft (⟨next, order.dependenciesAt next⟩ :: stack) placed =
      order.movesLeft stack placed := by
  have herase : order.untouched (⟨next, order.dependenciesAt next⟩ :: stack) placed =
      (order.untouched stack placed).erase next := by
    ext other
    simp only [mem_untouched, Finset.mem_erase, List.mem_cons, forall_eq_or_imp]
    tauto
  have hsum := Finset.add_sum_erase (order.untouched stack placed)
    (fun place => (order.dependenciesAt place).length + 1) huntouched
  rw [movesLeft, movesLeft, herase, ← hsum]
  simp
  omega

theorem movesLeft_nil_le (order : Order V) (placed : List Nat) :
    order.movesLeft [] placed ≤ order.nodes.size + order.links.size := by
  calc order.movesLeft [] placed
      ≤ ∑ place ∈ Finset.range order.nodeCount, ((order.dependenciesAt place).length + 1) := by
        rw [movesLeft, List.flatMap_nil, List.length_nil, List.length_nil, Nat.zero_add]
        exact Finset.sum_le_sum_of_subset Finset.sdiff_subset
    _ = (∑ place ∈ Finset.range order.nodeCount, (order.dependenciesAt place).length) +
          order.nodes.size := by
        simp [Finset.sum_add_distrib, nodeCount]
    _ ≤ order.nodes.size + order.links.size := by
        have := sum_dependencies_le order
        omega

/-! ## One placement -/

def Placed (order : Order V) (stack : List Frame) (placed : List Nat) :
    Except (List Nat) (List Nat) → Prop
  | .ok result => Settled order result ∧ placed ⊆ result ∧ ∀ frame ∈ stack, frame.place ∈ result
  | .error _ => ∃ place, order.Precedes place place

/-- The bounded run is the unbounded one: a bound above the number of moves is never met. -/
theorem placeStack_places (hwell : order.WellFormed) {fuel : Nat} {stack : List Frame}
    {placed : List Nat} (hopen : Open order placed none stack)
    (hfuel : order.movesLeft stack placed < fuel) :
    Places order stack placed (order.placeStack fuel stack placed) := by
  induction fuel generalizing stack placed with
  | zero => omega
  | succ fuel ih =>
      match stack with
      | [] => exact .done placed
      | ⟨place, []⟩ :: stack =>
          rw [movesLeft_close] at hfuel
          cases hopen with
          | cons _ _ honce _ _ _ hrest => exact .close (ih (hrest.finish honce) (by omega))
      | ⟨place, next :: pending⟩ :: stack =>
          rw [movesLeft_skip] at hfuel
          rw [placeStack]
          by_cases hplaced : next ∈ placed
          · rw [if_pos (by simpa using hplaced)]
            exact .skip hplaced (ih (hopen.skip hplaced) (by omega))
          · rw [if_neg (by simpa using hplaced)]
            by_cases hloop : place = next ∨ ∃ frame ∈ stack, frame.place = next
            · rw [if_pos (by simpa using hloop)]
              exact .loop hplaced hloop
            · rw [if_neg (by simpa using hloop)]
              simp only [not_or, not_exists, not_and] at hloop
              obtain ⟨hself, hstack⟩ := hloop
              have huntouched : next ∈ order.untouched (⟨place, pending⟩ :: stack) placed :=
                mem_untouched.mpr ⟨hopen.next_lt hwell, hplaced,
                  List.forall_mem_cons.mpr ⟨hself, hstack⟩⟩
              refine .enter hplaced hself hstack (ih (hopen.enter hwell hplaced hself hstack) ?_)
              rw [movesLeft_enter huntouched]
              omega

theorem Places.placed (hwell : order.WellFormed) {stack : List Frame} {placed : List Nat}
    {outcome : Except (List Nat) (List Nat)} (h : Places order stack placed outcome)
    (hopen : Open order placed none stack) (hsettled : Settled order placed) :
    Placed order stack placed outcome := by
  induction h with
  | done placed => exact ⟨hsettled, List.Subset.refl _, by simp⟩
  | @close place stack placed outcome _ ih =>
      cases hopen with
      | cons hlt hnew honce _ _ hwaits hrest =>
          have hclosed : Settled order (place :: placed) := by
            refine .cons hlt hnew ?_ hsettled
            intro source hsource
            simpa using hwaits source hsource
          have hrun := ih (hrest.finish honce) hclosed
          cases outcome with
          | error _ => exact hrun
          | ok result =>
              obtain ⟨hresult, hsubset, hstack⟩ := hrun
              obtain ⟨hplace, hsubset⟩ := List.cons_subset.mp hsubset
              exact ⟨hresult, hsubset, List.forall_mem_cons.mpr ⟨hplace, hstack⟩⟩
  | @skip place next pending stack placed outcome hplaced _ ih =>
      have hrun := ih (hopen.skip hplaced) hsettled
      cases outcome with
      | error _ => exact hrun
      | ok result => simpa [Placed] using hrun
  | @loop place next pending stack placed _ hloop =>
      cases hopen with
      | cons _ _ _ hpending _ _ hrest =>
          have hlinked : order.Linked next place := hpending next List.mem_cons_self
          rcases hloop with rfl | ⟨frame, hframe, rfl⟩
          · exact ⟨place, .single hlinked⟩
          · exact ⟨frame.place, .head hlinked (hrest.precedes frame hframe)⟩
  | @enter place next pending stack placed outcome hnext hself hstack _ ih =>
      have hrun := ih (hopen.enter hwell hnext hself hstack) hsettled
      cases outcome with
      | error _ => exact hrun
      | ok result =>
          obtain ⟨hresult, hsubset, hframes⟩ := hrun
          exact ⟨hresult, hsubset, by simpa using (List.forall_mem_cons.mp hframes).2⟩

end Runbook.Order
