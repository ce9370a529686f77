import Runbook.Proofs.Order.Loops

/-!
# Visits

A fold over an order without loops has one result for each key, given by those of the keys that it
waits for.  A visit finds it with one call for each key, made when the results of all keys that it
waits for are there, and gives the results of the keys that no link leads from.
-/

namespace Runbook.Order

variable {V α : Type} {order : Order V} {fold : Key → List V → List α → α}

/-! ## Results -/

def Solves (order : Order V) (fold : Key → List V → List α → α) (result : Key → α) : Prop :=
  ∀ key ∈ order.keys,
    result key = fold key (order.values key) ((order.dependencies key).map result)

theorem SettledKeys.solved_once {keys : List Key} (h : SettledKeys order keys)
    {first second : Key → α} (hfirst : order.Solves fold first)
    (hsecond : order.Solves fold second) : ∀ key ∈ keys, first key = second key := by
  induction h with
  | nil => simp
  | cons hkey _ hdependencies _ ih =>
      refine List.forall_mem_cons.mpr ⟨?_, ih⟩
      rw [hfirst _ hkey, hsecond _ hkey]
      congr 1
      exact List.map_congr_left fun dependency hdependency =>
        ih dependency (hdependencies dependency hdependency)

theorem SettledKeys.of_append {later earlier : List Key}
    (h : SettledKeys order (later ++ earlier)) : SettledKeys order earlier := by
  induction later with
  | nil => exact h
  | cons key later ih =>
      cases h with
      | cons _ _ _ hrest => exact ih hrest

theorem SettledKeys.before {keys before behind : List Key} {key : Key}
    (h : SettledKeys order keys.reverse) (hsplit : keys = before ++ key :: behind) :
    ∀ dependency ∈ order.dependencies key, dependency ∈ before := by
  subst hsplit
  rw [List.reverse_append, List.reverse_cons, List.append_assoc] at h
  cases h.of_append with
  | cons _ _ hdependencies =>
      exact fun dependency hdependency => by simpa using hdependencies dependency hdependency

theorem WellFormed.exists_solution (hwell : order.WellFormed) {places : List Nat}
    (hplaces : order.linearize = .ok places) (fold : Key → List V → List α → α) :
    ∃ result : Key → α, order.Solves fold result ∧
      ∀ other, order.Solves fold other → ∀ key ∈ order.keys, other key = result key := by
  have hsettled := hwell.settledKeys hplaces
  have hall : ∀ key ∈ order.keys, key ∈ (order.arrangedKeys places).reverse := fun key hkey =>
    List.mem_reverse.mpr ((hwell.arrangedKeys_perm hplaces).mem_iff.mpr hkey)
  -- a fold has a result of its own for a key without dependencies
  have : Nonempty α := ⟨fold default [] []⟩
  obtain ⟨result, hresult⟩ :=
    hsettled.exists_result fun key inputs => fold key (order.values key) inputs
  have hsolves : order.Solves fold result := fun key hkey => hresult key (hall key hkey)
  exact ⟨result, hsolves, fun other hother key hkey =>
    hsettled.solved_once hother hsolves key (hall key hkey)⟩

/-! ## Calls -/

structure FoldCall (V α : Type) where
  key : Key
  values : List V
  inputs : List α

def noting (fold : Key → List V → List α → α) (key : Key) (values : List V)
    (inputs : List (α × FoldCall V α)) : α × FoldCall V α :=
  (fold key values (inputs.map (·.1)), ⟨key, values, inputs.map (·.1)⟩)

def visitCalls (order : Order V) (fold : Key → List V → List α → α) :
    Except OrderError (List (FoldCall V α)) :=
  (order.visit (noting fold)).1.map fun results => results.1.map (·.2)

theorem WellFormed.visitCalls_eq (hwell : order.WellFormed) {places : List Nat}
    (hplaces : order.linearize = .ok places) {result : Key → α}
    (hresult : order.Solves fold result) :
    order.visitCalls fold = .ok ((order.arrangedKeys places).map fun key =>
      ⟨key, order.values key, (order.dependencies key).map result⟩) := by
  let noted : Key → α × FoldCall V α := fun key =>
    (result key, ⟨key, order.values key, (order.dependencies key).map result⟩)
  have hnoted : order.Solves (noting fold) noted := by
    intro key hkey
    rw [noting, List.map_map]
    exact Prod.ext (hresult key hkey) rfl
  rw [visitCalls, hwell.visit_eq hplaces hnoted]
  simp [Except.map, noted]

/-! ## Ends -/

theorem ends_sublist (order : Order V) : order.ends.Sublist order.keys := by
  rw [← keyAt?_range]
  exact List.filter_sublist.filterMap _

theorem WellFormed.mem_ends (hwell : order.WellFormed) {key : Key} :
    key ∈ order.ends ↔ key ∈ order.keys ∧ ¬ ∃ target, order.Joins key target := by
  constructor
  · intro hend
    refine ⟨mem_keys_of_end hend, ?_⟩
    rintro ⟨target, id, link, hlink, -, hsource, -⟩
    obtain ⟨place, hplace, hkey⟩ := List.mem_filterMap.mp hend
    obtain rfl := hwell.place_unique hkey hsource
    have hdependents : order.hasDependents link.source = true :=
      hasDependents_iff.mpr ⟨link.target, link, hlink, rfl, rfl⟩
    simp [hdependents] at hplace
  · rintro ⟨hkey, hnone⟩
    by_contra hend
    obtain ⟨dependent, -, hwaits⟩ := hwell.exists_dependent hkey hend
    obtain ⟨first, second, hfirst, hsecond, hlinked⟩ := hwell.mem_dependencies.mp hwaits
    exact hnone ⟨dependent, hlinked.joins hfirst hsecond⟩

/-! ## Visits -/

/-- Visiting a reachable order without loops is a fold from the bottom up.  Just one function on the
keys solves the equations of the fold; a visit calls the fold once for each key, after the calls for
all keys that it waits for and with the results of all of them; and it gives the results of the keys
that no link in force leads from, by creation, at least one of which comes after each key. -/
theorem Reachable.visits_upward [BEq V] (h : Reachable order) (hacyclic : order.Acyclic)
    (fold : Key → List V → List α → α) :
    ∃ (result : Key → α) (called : List Key),
      order.Solves fold result ∧
      (∀ other, order.Solves fold other → ∀ key ∈ order.keys, other key = result key) ∧
      called.Perm order.keys ∧ called.Nodup ∧
      (∀ before key behind, called = before ++ key :: behind →
        ∀ dependency ∈ order.dependencies key, dependency ∈ before) ∧
      order.visitCalls fold = .ok (called.map fun key =>
        ⟨key, order.values key, (order.dependencies key).map result⟩) ∧
      (order.visit fold).1 = .ok (called.map result, order.ends.map result) ∧
      order.ends.Sublist order.keys ∧
      (∀ key, key ∈ order.ends ↔ key ∈ order.keys ∧ ¬ ∃ target, order.Joins key target) ∧
      ∀ key ∈ order.keys, ∃ last ∈ order.ends, order.LeadsTo key last := by
  have hwell := h.wellFormed
  obtain ⟨places, hplaces⟩ := hwell.linearize_ok_iff.mpr hacyclic
  obtain ⟨result, hresult, hunique⟩ := hwell.exists_solution hplaces fold
  have hperm := hwell.arrangedKeys_perm hplaces
  refine ⟨result, order.arrangedKeys places, hresult, hunique, hperm,
    hperm.nodup_iff.mpr hwell.keys_nodup, fun before key behind hsplit => ?_,
    hwell.visitCalls_eq hplaces hresult, hwell.visit_eq hplaces hresult, order.ends_sublist,
    fun key => hwell.mem_ends, hwell.needs_ends hplaces⟩
  exact (hwell.settledKeys hplaces).before hsplit

theorem visits_upward_diamond :
    ∃ (order : Order Nat) (result : Key → Nat), Reachable order ∧ order.Acyclic ∧
      order.Solves (fun _ values inputs => values.foldl (· + ·) (inputs.foldl (· + ·) 0)) result ∧
      order.ends = [.constant "a", .post (.constant "d")] ∧
      order.ends.map result = [19, 20] := by
  let edits : List (Edit Nat) :=
    [.item (.key (.constant "a"))
        [(.after, .key (.constant "b")), (.after, .key (.constant "c"))] 8,
      .item (.key (.constant "b")) [(.after, .key (.constant "d"))] 1,
      .item (.key (.constant "c")) [(.after, .key (.constant "d"))] 2,
      .item (.key (.constant "d")) [(.after, .key (.constant "a"))] 4,
      .unregister (.link ⟨4, .constant "a", .constant "d"⟩),
      .register (.key (.post (.constant "d"))) 16]
  let sums : Key → List Nat → List Nat → Nat :=
    fun _ values inputs => values.foldl (· + ·) (inputs.foldl (· + ·) 0)
  have hreachable : Reachable (Order.empty.edited edits) := Reachable.empty.edited edits
  have hacyclic : (Order.empty.edited edits).Acyclic :=
    hreachable.wellFormed.linearize_ok_iff.mp ⟨[3, 0, 2, 1, 4], by cbv⟩
  obtain ⟨result, called, hsolves, -, -, -, -, -, hvisit, -⟩ :=
    hreachable.visits_upward hacyclic sums
  have hcomputed : ((Order.empty.edited edits).visit sums).1 =
      .ok ([4, 5, 6, 19, 20], [19, 20]) := by
    cbv
  rw [hvisit] at hcomputed
  exact ⟨_, result, hreachable, hacyclic, hsolves, by cbv,
    congrArg Prod.snd (Except.ok.inj hcomputed)⟩

end Runbook.Order
