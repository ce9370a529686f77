import Runbook.Proofs.Order.WellFormed
import Mathlib.Algebra.BigOperators.Group.Finset.Piecewise
import Mathlib.Algebra.Order.BigOperators.Group.Finset

/-!
# The graph of an order

Links in force lead from place to place.  An arrangement of the places is right when it has every
place once and the source of every link before its target.
-/

namespace Runbook.Order

open Relation

variable {V : Type} {order : Order V}

def Linked (order : Order V) (source target : Nat) : Prop :=
  ∃ link ∈ order.links, link.source = source ∧ link.target = target

def Precedes (order : Order V) : Nat → Nat → Prop := TransGen order.Linked

def Acyclic (order : Order V) : Prop := ∀ place, ¬ order.Precedes place place

structure Arranges (order : Order V) (places : List Nat) : Prop where
  perm : places.Perm (List.range order.nodeCount)
  before : ∀ source target, order.Linked source target →
    places.idxOf source < places.idxOf target

/-! ## Dependencies -/

theorem mem_dependenciesAt {source target : Nat} :
    source ∈ order.dependenciesAt target ↔ order.Linked source target := by
  rw [dependenciesAt, mem_firsts]
  simp only [List.mem_map, List.mem_filter, Array.mem_toList_iff, decide_eq_true_eq]
  constructor
  · rintro ⟨link, ⟨hlink, htarget⟩, hsource⟩
    exact ⟨link, hlink, hsource, htarget⟩
  · rintro ⟨link, hlink, hsource, htarget⟩
    exact ⟨link, ⟨hlink, htarget⟩, hsource⟩

theorem dependenciesAt_nodup (order : Order V) (place : Nat) :
    (order.dependenciesAt place).Nodup :=
  nodup_firsts _

theorem WellFormed.linked_lt (h : order.WellFormed) {source target : Nat}
    (hlinked : order.Linked source target) :
    source < order.nodeCount ∧ target < order.nodeCount := by
  obtain ⟨link, hlink, rfl, rfl⟩ := hlinked
  exact h.link_bounds link hlink

theorem WellFormed.dependency_lt (h : order.WellFormed) {source target : Nat}
    (hdependency : source ∈ order.dependenciesAt target) : source < order.nodeCount :=
  (h.linked_lt (mem_dependenciesAt.mp hdependency)).1

theorem hasDependents_iff {place : Nat} :
    order.hasDependents place = true ↔ ∃ target, order.Linked place target := by
  simp only [hasDependents, Array.any_eq_true', decide_eq_true_eq]
  constructor
  · rintro ⟨link, hlink, hsource⟩
    exact ⟨link.target, link, hlink, hsource, rfl⟩
  · rintro ⟨target, link, hlink, hsource, -⟩
    exact ⟨link, hlink, hsource⟩

private theorem sum_targets_le (links : List Link) (count : Nat) :
    ∑ place ∈ Finset.range count, (links.filter (·.target = place)).length ≤ links.length := by
  induction links with
  | nil => simp
  | cons link links ih =>
      have hfirst : ∑ place ∈ Finset.range count, (if link.target = place then 1 else 0) ≤ 1 := by
        rw [Finset.sum_ite_eq]
        split <;> omega
      calc ∑ place ∈ Finset.range count, ((link :: links).filter (·.target = place)).length
          = ∑ place ∈ Finset.range count, ((links.filter (·.target = place)).length +
              if link.target = place then 1 else 0) := by
            refine Finset.sum_congr rfl fun place _ => ?_
            by_cases htarget : link.target = place <;> simp [htarget]
        _ ≤ links.length + 1 := by
            rw [Finset.sum_add_distrib]
            omega

theorem sum_dependencies_le (order : Order V) :
    ∑ place ∈ Finset.range order.nodeCount, (order.dependenciesAt place).length ≤
      order.links.size := by
  have hfirsts : ∀ place, (order.dependenciesAt place).length ≤
      (order.links.toList.filter (·.target = place)).length := by
    intro place
    rw [dependenciesAt]
    simpa using length_firsts_le
      ((order.links.toList.filter (·.target = place)).map (·.source))
  calc ∑ place ∈ Finset.range order.nodeCount, (order.dependenciesAt place).length
      ≤ ∑ place ∈ Finset.range order.nodeCount,
          (order.links.toList.filter (·.target = place)).length :=
        Finset.sum_le_sum fun place _ => hfirsts place
    _ ≤ order.links.toList.length := sum_targets_le _ _
    _ = order.links.size := Array.length_toList

/-! ## Arrangements -/

theorem Arranges.precedes {places : List Nat} (h : order.Arranges places) {source target : Nat}
    (hpath : order.Precedes source target) : places.idxOf source < places.idxOf target := by
  induction hpath with
  | single hlinked => exact h.before _ _ hlinked
  | tail _ hlinked ih => exact ih.trans (h.before _ _ hlinked)

theorem Arranges.acyclic {places : List Nat} (h : order.Arranges places) : order.Acyclic :=
  fun _ hcycle => Nat.lt_irrefl _ (h.precedes hcycle)

end Runbook.Order
