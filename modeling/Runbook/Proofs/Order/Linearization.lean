import Runbook.Proofs.Order.Placement
import Mathlib.Data.List.Permutation

/-!
# Linearization

A reachable order has a linear arrangement exactly when no path of links leads back to where it
began.  The arrangement has every node once, after all nodes that it waits for, so reading it gives
every key once and every registered value once.
-/

namespace Runbook.Order

open Relation

variable {V : Type} {order : Order V}

/-! ## All roots -/

inductive PlacesAll (order : Order V) :
    List Nat → List Nat → Except (List Nat) (List Nat) → Prop where
  | done (placed : List Nat) : PlacesAll order [] placed (.ok placed)
  | known {root roots placed outcome} :
      root ∈ placed → PlacesAll order roots placed outcome →
      PlacesAll order (root :: roots) placed outcome
  | found {root roots placed result outcome} :
      root ∉ placed →
      Places order [⟨root, order.dependenciesAt root⟩] placed (.ok result) →
      PlacesAll order roots result outcome →
      PlacesAll order (root :: roots) placed outcome
  | loop {root roots placed loop} :
      root ∉ placed →
      Places order [⟨root, order.dependenciesAt root⟩] placed (.error loop) →
      PlacesAll order (root :: roots) placed (.error loop)

def answer (order : Order V) : Except (List Nat) (List Nat) → Except OrderError (List Nat)
  | .ok placed => .ok placed.reverse
  | .error loop => .error (.cycleDetected (loop.filterMap order.keyAt?))

def Linearizes (order : Order V) (outcome : Except OrderError (List Nat)) : Prop :=
  ∃ run, PlacesAll order (List.range order.nodeCount) [] run ∧ outcome = order.answer run

theorem Places.unique {stack : List Frame} {placed : List Nat}
    {first second : Except (List Nat) (List Nat)} (hfirst : Places order stack placed first)
    (hsecond : Places order stack placed second) : first = second := by
  induction hfirst with
  | done placed => cases hsecond; rfl
  | close _ ih => cases hsecond with
    | close hrun => exact ih hrun
  | skip hplaced _ ih => cases hsecond with
    | skip _ hrun => exact ih hrun
    | loop hnew _ => exact absurd hplaced hnew
    | enter hnew _ _ _ => exact absurd hplaced hnew
  | loop hnew hloop => cases hsecond with
    | skip hplaced _ => exact absurd hplaced hnew
    | loop _ _ => rfl
    | enter _ hself hstack _ =>
        rcases hloop with hloop | ⟨frame, hframe, hloop⟩
        · exact absurd hloop hself
        · exact absurd hloop (hstack frame hframe)
  | enter hnew hself hstack _ ih => cases hsecond with
    | skip hplaced _ => exact absurd hplaced hnew
    | loop _ hloop =>
        rcases hloop with hloop | ⟨frame, hframe, hloop⟩
        · exact absurd hloop hself
        · exact absurd hloop (hstack frame hframe)
    | enter _ _ _ hrun => exact ih hrun

theorem PlacesAll.unique {roots placed : List Nat} {first second : Except (List Nat) (List Nat)}
    (hfirst : PlacesAll order roots placed first) (hsecond : PlacesAll order roots placed second) :
    first = second := by
  induction hfirst with
  | done placed => cases hsecond; rfl
  | known hplaced _ ih => cases hsecond with
    | known _ hrest => exact ih hrest
    | found hnew _ _ => exact absurd hplaced hnew
    | loop hnew _ => exact absurd hplaced hnew
  | found hnew hrun _ ih => cases hsecond with
    | known hplaced _ => exact absurd hplaced hnew
    | found _ hother hrest => cases hrun.unique hother; exact ih hrest
    | loop _ hother => cases hrun.unique hother
  | loop hnew hrun => cases hsecond with
    | known hplaced _ => exact absurd hplaced hnew
    | found _ hother _ => cases hrun.unique hother
    | loop _ hother => cases hrun.unique hother; rfl

private theorem placesAll_foldlM (hwell : order.WellFormed) {roots placed : List Nat}
    (hroots : ∀ root ∈ roots, root < order.nodeCount) (hsettled : Settled order placed) :
    PlacesAll order roots placed (roots.foldlM order.placeRoot placed) := by
  induction roots generalizing placed with
  | nil => exact .done placed
  | cons root roots ih =>
      obtain ⟨hroot, hroots⟩ := List.forall_mem_cons.mp hroots
      rw [List.foldlM_cons, placeRoot]
      by_cases hplaced : root ∈ placed
      · rw [if_pos (by simpa using hplaced)]
        exact .known hplaced (ih hroots hsettled)
      · rw [if_neg (by simpa using hplaced)]
        have hopen := Open.root hroot hplaced
        have huntouched : root ∈ order.untouched [] placed :=
          mem_untouched.mpr ⟨hroot, hplaced, by simp⟩
        have hmoves : order.movesLeft [⟨root, order.dependenciesAt root⟩] placed <
            order.placeFuel := by
          rw [movesLeft_enter huntouched]
          exact Nat.lt_succ_of_le (movesLeft_nil_le order placed)
        have hrun := placeStack_places hwell hopen hmoves
        have hplaced' := hrun.placed hwell hopen hsettled
        cases houtcome : order.placeStack order.placeFuel [⟨root, order.dependenciesAt root⟩]
            placed with
        | ok result =>
            rw [houtcome] at hrun hplaced'
            exact .found hplaced hrun (ih hroots hplaced'.1)
        | error loop =>
            rw [houtcome] at hrun
            exact .loop hplaced hrun

theorem PlacesAll.placed (hwell : order.WellFormed) {roots placed : List Nat}
    {outcome : Except (List Nat) (List Nat)} (h : PlacesAll order roots placed outcome)
    (hroots : ∀ root ∈ roots, root < order.nodeCount) (hsettled : Settled order placed) :
    match outcome with
    | .ok result => Settled order result ∧ placed ⊆ result ∧ roots ⊆ result
    | .error _ => ∃ place, order.Precedes place place := by
  induction h with
  | done placed => exact ⟨hsettled, List.Subset.refl _, List.nil_subset _⟩
  | @known root roots placed outcome hplaced _ ih =>
      have hrun := ih (List.forall_mem_cons.mp hroots).2 hsettled
      cases outcome with
      | error _ => exact hrun
      | ok result =>
          obtain ⟨hresult, hsubset, hrest⟩ := hrun
          exact ⟨hresult, hsubset, List.cons_subset.mpr ⟨hsubset hplaced, hrest⟩⟩
  | @found root roots placed result outcome hnew hrun _ ih =>
      obtain ⟨hroot, hroots⟩ := List.forall_mem_cons.mp hroots
      obtain ⟨hresult, hsubset, hframes⟩ := hrun.placed hwell (Open.root hroot hnew) hsettled
      have hrest := ih hroots hresult
      cases outcome with
      | error _ => exact hrest
      | ok final =>
          obtain ⟨hfinal, hsubset', hrest⟩ := hrest
          exact ⟨hfinal, List.Subset.trans hsubset hsubset',
            List.cons_subset.mpr ⟨hsubset' (by simpa using hframes), hrest⟩⟩
  | @loop root roots placed loop hnew hrun =>
      obtain ⟨hroot, -⟩ := List.forall_mem_cons.mp hroots
      exact hrun.placed hwell (Open.root hroot hnew) hsettled

theorem WellFormed.linearizes_iff (hwell : order.WellFormed)
    (outcome : Except OrderError (List Nat)) :
    order.Linearizes outcome ↔ outcome = order.linearize := by
  have hrun : PlacesAll order (List.range order.nodeCount) [] _ :=
    placesAll_foldlM hwell (by simp) Settled.nil
  have hanswer : order.linearize =
      order.answer ((List.range order.nodeCount).foldlM order.placeRoot []) := by
    rw [linearize]
    split <;> next hfold => rw [hfold]; rfl
  constructor
  · rintro ⟨run, hother, rfl⟩
    rw [hanswer, hrun.unique hother]
  · rintro rfl
    exact ⟨_, hrun, hanswer⟩

/-! ## Arrangements found -/

theorem Settled.closed {placed : List Nat} (h : Settled order placed) {source target : Nat}
    (hlinked : order.Linked source target) (htarget : target ∈ placed) : source ∈ placed := by
  induction h with
  | nil => simp at htarget
  | cons _ _ hsources _ ih =>
      rcases List.mem_cons.mp htarget with rfl | htarget
      · exact List.mem_cons_of_mem _ (hsources source (mem_dependenciesAt.mpr hlinked))
      · exact List.mem_cons_of_mem _ (ih htarget)

theorem Settled.before {placed : List Nat} (h : Settled order placed) {source target : Nat}
    (hlinked : order.Linked source target) (htarget : target ∈ placed) :
    placed.reverse.idxOf source < placed.reverse.idxOf target := by
  induction h with
  | nil => simp at htarget
  | @cons place placed _ hnew hsources hsettled ih =>
      rw [List.reverse_cons, List.idxOf_append, List.idxOf_append]
      rcases List.mem_cons.mp htarget with rfl | htarget
      · have hsource : source ∈ placed.reverse := by
          simpa using hsources source (mem_dependenciesAt.mpr hlinked)
        rw [if_pos hsource, if_neg (by simpa using hnew)]
        have := List.idxOf_lt_length_iff.mpr hsource
        omega
      · have hsource := hsettled.closed hlinked htarget
        rw [if_pos (by simpa using hsource), if_pos (by simpa using htarget)]
        exact ih htarget

theorem WellFormed.arranges (hwell : order.WellFormed) {places : List Nat}
    (h : order.linearize = .ok places) : order.Arranges places := by
  obtain ⟨run, hrun, hanswer⟩ := (hwell.linearizes_iff _).mpr rfl
  have hplaced := hrun.placed hwell (by simp) Settled.nil
  rw [h] at hanswer
  cases run with
  | error loop => cases hanswer
  | ok placed =>
      cases hanswer
      obtain ⟨hsettled, -, hall⟩ := hplaced
      constructor
      · refine (List.reverse_perm placed).trans ?_
        rw [List.perm_ext_iff_of_nodup hsettled.nodup List.nodup_range]
        intro place
        exact ⟨fun hplace => List.mem_range.mpr (hsettled.lt place hplace), fun hplace =>
          hall hplace⟩
      · intro source target hlinked
        exact hsettled.before hlinked
          (hall (List.mem_range.mpr (hwell.linked_lt hlinked).2))

theorem WellFormed.linearize_ok_iff (hwell : order.WellFormed) :
    (∃ places, order.linearize = .ok places) ↔ order.Acyclic := by
  constructor
  · rintro ⟨places, hplaces⟩
    exact (hwell.arranges hplaces).acyclic
  · intro hacyclic
    obtain ⟨run, hrun, hanswer⟩ := (hwell.linearizes_iff _).mpr rfl
    have hplaced := hrun.placed hwell (by simp) Settled.nil
    cases run with
    | ok placed => exact ⟨_, hanswer⟩
    | error loop =>
        obtain ⟨place, hcycle⟩ := hplaced
        exact absurd hcycle (hacyclic place)

/-! ## Reading -/

theorem filterMap_range_getElem? {α β : Type} (members : List α) (view : α → β) :
    (List.range members.length).filterMap (fun index => members[index]?.map view) =
      members.map view := by
  induction members with
  | nil => rfl
  | cons member members ih =>
      rw [List.length_cons, List.range_succ_eq_map, List.map_cons, ← ih]
      simp [List.filterMap_map]

theorem entryAt?_range (order : Order V) :
    (List.range order.nodeCount).filterMap order.entryAt? =
      order.nodes.toList.map fun node => (node.key, node.values) := by
  rw [← filterMap_range_getElem? order.nodes.toList]
  simp only [Array.length_toList, Array.getElem?_toList]
  rfl

theorem WellFormed.place?_key (hwell : order.WellFormed) {place : Nat} {node : Node V}
    (hnode : order.nodes[place]? = some node) : order.place? node.key = some place := by
  obtain ⟨hlt, rfl⟩ := Array.getElem?_eq_some_iff.mp hnode
  obtain ⟨other, hother⟩ := (mem_keys_iff_place? order order.nodes[place].key).mp
    (by simpa [keys] using ⟨_, Array.getElem_mem hlt, rfl⟩)
  have hkey := keyAt?_place? hother
  have hsame : order.keys[other]? = order.keys[place]? := by
    simpa [keys, keyAt?, hlt] using hkey
  have hbound : other < order.keys.length := by simpa [keys, nodeCount] using place?_lt hother
  rw [hother, (List.getElem?_inj hbound hwell.keys_nodup).mp hsame]

theorem WellFormed.values_key (hwell : order.WellFormed) {node : Node V}
    (hnode : node ∈ order.nodes) : order.values node.key = node.values := by
  obtain ⟨place, hlt, rfl⟩ := Array.mem_iff_getElem.mp hnode
  rw [values, hwell.place?_key (Array.getElem?_eq_getElem hlt)]
  simp [valuesAt, hlt]

theorem WellFormed.entries_perm (hwell : order.WellFormed) {places : List Nat}
    (h : order.Arranges places) :
    (places.filterMap order.entryAt?).Perm
      (order.keys.map fun key => (key, order.values key)) := by
  have hkeys : (order.keys.map fun key => (key, order.values key)) =
      order.nodes.toList.map fun node => (node.key, node.values) := by
    rw [keys, List.map_map]
    refine List.map_congr_left fun node hnode => ?_
    simp [hwell.values_key (Array.mem_toList_iff.mp hnode)]
  rw [hkeys, ← entryAt?_range]
  exact h.perm.filterMap _

theorem linearize_error {error : OrderError} (h : order.linearize = .error error) :
    ∃ keys, error = .cycleDetected keys := by
  rw [linearize] at h
  split at h
  · cases h
  · cases h
    exact ⟨_, rfl⟩

private theorem entryAt?_arrange (order : Order V) : order.arrange.2.entryAt? = order.entryAt? := by
  rw [arrange]
  split
  · rfl
  · split <;> rfl

theorem linearEntries_eq (order : Order V) :
    order.linearEntries.1 =
      order.arrange.1.map fun places => places.filterMap order.entryAt? := by
  rw [← entryAt?_arrange order]
  rfl

theorem toLinearList_eq (order : Order V) :
    order.toLinearList.1 =
      order.linearEntries.1.map fun entries => entries.flatMap (·.2) := rfl

/-- Linearization ends for every reachable order.  It fails exactly when some path of links leads
back to its beginning; otherwise it arranges all nodes along the links, and the readings that follow
it list every key with its values once and every registered value once. -/
theorem Reachable.linearization [BEq V] (h : Reachable order) :
    (∀ outcome, order.Linearizes outcome ↔ outcome = order.linearize) ∧
    order.arrange.1 = order.linearize ∧
    (order.Acyclic →
      ∃ places entries values,
        order.linearize = .ok places ∧ order.linearEntries.1 = .ok entries ∧
        order.toLinearList.1 = .ok values ∧
        order.Arranges places ∧
        order.keys.Nodup ∧ entries.Perm (order.keys.map fun key => (key, order.values key)) ∧
        values.Perm (order.keys.flatMap order.values)) ∧
    (¬ order.Acyclic →
      ∃ error, order.linearize = .error error ∧ order.linearEntries.1 = .error error ∧
        order.toLinearList.1 = .error error) := by
  have hwell := h.wellFormed
  refine ⟨hwell.linearizes_iff, hwell.arrange_eq, ?_, ?_⟩
  · intro hacyclic
    obtain ⟨places, hplaces⟩ := hwell.linearize_ok_iff.mpr hacyclic
    have harrange : order.arrange.1 = .ok places := hwell.arrange_eq.trans hplaces
    have harranges := hwell.arranges hplaces
    have hentries := hwell.entries_perm harranges
    have hread : order.linearEntries.1 = .ok (places.filterMap order.entryAt?) := by
      rw [linearEntries_eq, harrange]
      rfl
    refine ⟨places, _, (places.filterMap order.entryAt?).flatMap (·.2), hplaces, hread, ?_,
      harranges, hwell.keys_nodup, hentries, ?_⟩
    · rw [toLinearList_eq, hread]
      rfl
    · have hvalues := hentries.flatMap_right (·.2)
      rwa [List.flatMap_map] at hvalues
  · intro hcyclic
    cases hlinearize : order.linearize with
    | ok places => exact absurd (hwell.linearize_ok_iff.mp ⟨places, hlinearize⟩) hcyclic
    | error error =>
        have hread : order.linearEntries.1 = .error error := by
          rw [linearEntries_eq, hwell.arrange_eq, hlinearize]
          rfl
        refine ⟨error, rfl, hread, ?_⟩
        rw [toLinearList_eq, hread]
        rfl

theorem linearization_after_edits :
    ∃ order : Order Nat, Reachable order ∧
      order.keys = [.post (.constant "b"), .constant "b", .constant "a"] ∧
      order.Linearizes (.ok [2, 1, 0]) := by
  have hreachable := (Reachable.empty (V := Nat))
    |>.edit (.register (.key (.post (.constant "b"))) 3)
    |>.edit (.register (.key (.constant "a")) 1)
    |>.edit (.link (.key (.constant "b")) (.key (.constant "a")))
    |>.edit (.unregister (.link ⟨1, .constant "b", .constant "a"⟩))
    |>.edit (.link (.key (.constant "a")) (.key (.constant "b")))
    |>.read
  exact ⟨_, hreachable, by decide +kernel, (hreachable.linearization.1 _).mpr (by cbv)⟩

end Runbook.Order
