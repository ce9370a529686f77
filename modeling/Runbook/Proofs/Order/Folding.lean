import Runbook.Proofs.Order.Linearization

/-!
# Folding

A fold over an order without loops gives each key one result, computed from the results of all keys
that it waits for, in the order of its dependencies.
-/

namespace Runbook.Order

variable {V α : Type} {order : Order V}

def ends (order : Order V) : List Key :=
  ((List.range order.nodeCount).filter fun place => !order.hasDependents place).filterMap
    order.keyAt?

/-! ## Keys of places -/

theorem keyAt?_of_lt {place : Nat} (hplace : place < order.nodeCount) :
    ∃ node, order.nodes[place]? = some node ∧ order.keyAt? place = some node.key ∧
      order.entryAt? place = some (node.key, node.values) := by
  have hnode : order.nodes[place]? = some order.nodes[place] :=
    Array.getElem?_eq_getElem hplace
  exact ⟨_, hnode, by rw [keyAt?, hnode]; rfl, by rw [entryAt?, hnode]; rfl⟩

theorem WellFormed.keyAt?_iff (hwell : order.WellFormed) {place : Nat} {key : Key} :
    order.keyAt? place = some key ↔ order.place? key = some place := by
  constructor
  · intro hkey
    obtain ⟨node, hnode, rfl⟩ := Option.map_eq_some_iff.mp hkey
    exact hwell.place?_key hnode
  · exact keyAt?_place?

theorem WellFormed.entryAt?_eq (hwell : order.WellFormed) {place : Nat} {key : Key}
    (hkey : order.keyAt? place = some key) :
    order.entryAt? place = some (key, order.values key) := by
  obtain ⟨node, hnode, rfl⟩ := Option.map_eq_some_iff.mp hkey
  rw [hwell.values_key (Array.mem_of_getElem? hnode), entryAt?, hnode]
  rfl

theorem dependencies_of_keyAt? (hwell : order.WellFormed) {place : Nat} {key : Key}
    (hkey : order.keyAt? place = some key) :
    order.dependencies key = (order.dependenciesAt place).filterMap order.keyAt? := by
  rw [dependencies, hwell.keyAt?_iff.mp hkey]

theorem mem_keys_of_keyAt? {place : Nat} {key : Key} (hkey : order.keyAt? place = some key) :
    key ∈ order.keys := by
  obtain ⟨node, hnode, rfl⟩ := Option.map_eq_some_iff.mp hkey
  exact List.mem_map_of_mem (Array.mem_toList_iff.mpr (Array.mem_of_getElem? hnode))

theorem mem_keys_of_dependency {key dependency : Key}
    (hdependency : dependency ∈ order.dependencies key) : dependency ∈ order.keys := by
  rw [dependencies] at hdependency
  split at hdependency
  · obtain ⟨place, -, hplace⟩ := List.mem_filterMap.mp hdependency
    exact mem_keys_of_keyAt? hplace
  · simp at hdependency

theorem mem_keys_of_end {key : Key} (hkey : key ∈ order.ends) : key ∈ order.keys := by
  obtain ⟨place, -, hplace⟩ := List.mem_filterMap.mp hkey
  exact mem_keys_of_keyAt? hplace

/-! ## Arranged keys -/

/-- Keys in an order in which each comes after the keys that it waits for, latest first. -/
inductive SettledKeys (order : Order V) : List Key → Prop where
  | nil : SettledKeys order []
  | cons {key keys} :
      key ∈ order.keys → key ∉ keys → (∀ dependency ∈ order.dependencies key, dependency ∈ keys) →
      SettledKeys order keys → SettledKeys order (key :: keys)

theorem Settled.keys (hwell : order.WellFormed) {placed : List Nat} (h : Settled order placed) :
    SettledKeys order (placed.filterMap order.keyAt?) := by
  induction h with
  | nil => exact .nil
  | @cons place placed hlt hnew hsources _ ih =>
      obtain ⟨node, hnode, hkey, -⟩ := keyAt?_of_lt hlt
      rw [List.filterMap_cons_some hkey]
      refine .cons (mem_keys_of_keyAt? hkey) ?_ ?_ ih
      · intro hmem
        obtain ⟨other, hother, hsame⟩ := List.mem_filterMap.mp hmem
        have : other = place := by
          rw [hwell.keyAt?_iff] at hkey hsame
          exact Option.some.inj (hsame.symm.trans hkey)
        exact hnew (this ▸ hother)
      · intro dependency hdependency
        rw [dependencies_of_keyAt? hwell hkey] at hdependency
        obtain ⟨source, hsource, hdependency⟩ := List.mem_filterMap.mp hdependency
        exact List.mem_filterMap.mpr ⟨source, hsources source hsource, hdependency⟩

theorem SettledKeys.closed {keys : List Key} (h : SettledKeys order keys) {key : Key}
    (hkey : key ∈ keys) : ∀ dependency ∈ order.dependencies key, dependency ∈ keys := by
  induction h with
  | nil => simp at hkey
  | cons _ _ hdependencies _ ih =>
      intro dependency hdependency
      rcases List.mem_cons.mp hkey with rfl | hkey
      · exact List.mem_cons_of_mem _ (hdependencies dependency hdependency)
      · exact List.mem_cons_of_mem _ (ih hkey dependency hdependency)

/-- The first of the keys that lack a property waits only for keys that have it. -/
theorem SettledKeys.exists_first {P : Key → Prop} {keys : List Key} (h : SettledKeys order keys)
    (hlacking : ∃ key ∈ keys, ¬ P key) :
    ∃ key ∈ keys, ¬ P key ∧ ∀ dependency ∈ order.dependencies key, P dependency := by
  induction h with
  | nil => simp at hlacking
  | @cons key keys _ _ hdependencies _ ih =>
      by_cases hearlier : ∃ other ∈ keys, ¬ P other
      · obtain ⟨first, hfirst, hrest⟩ := ih hearlier
        exact ⟨first, List.mem_cons_of_mem _ hfirst, hrest⟩
      · have hall : ∀ other ∈ keys, P other := by simpa using hearlier
        obtain ⟨lacking, hmem, hlacks⟩ := hlacking
        rcases List.mem_cons.mp hmem with rfl | hmem
        · exact ⟨lacking, List.mem_cons_self, hlacks,
            fun dependency h => hall dependency (hdependencies dependency h)⟩
        · exact absurd (hall lacking hmem) hlacks

theorem WellFormed.exists_dependent (hwell : order.WellFormed) {key : Key}
    (hkey : key ∈ order.keys) (hend : key ∉ order.ends) :
    ∃ dependent ∈ order.keys, key ∈ order.dependencies dependent := by
  obtain ⟨place, hplace⟩ := (mem_keys_iff_place? order key).mp hkey
  have hname := hwell.keyAt?_iff.mpr hplace
  have hlt : place < order.nodeCount := by
    obtain ⟨node, hnode, -⟩ := Option.map_eq_some_iff.mp hname
    exact (Array.getElem?_eq_some_iff.mp hnode).1
  have hdependents : order.hasDependents place = true := by
    by_contra hnone
    exact hend (List.mem_filterMap.mpr ⟨place, by simp [hlt, hnone], hname⟩)
  obtain ⟨target, hlinked⟩ := hasDependents_iff.mp hdependents
  obtain ⟨node, -, htarget, -⟩ := keyAt?_of_lt (hwell.linked_lt hlinked).2
  refine ⟨node.key, mem_keys_of_keyAt? htarget, ?_⟩
  rw [dependencies_of_keyAt? hwell htarget]
  exact List.mem_filterMap.mpr ⟨place, mem_dependenciesAt.mpr hlinked, hname⟩

theorem SettledKeys.of_ends (hwell : order.WellFormed) {P : Key → Prop} {keys : List Key}
    (h : SettledKeys order keys) (hends : ∀ key ∈ order.ends, P key)
    (hpasses : ∀ key, P key → ∀ dependency ∈ order.dependencies key, P dependency)
    (hlater : ∀ key ∈ order.keys, key ∉ keys → P key) : ∀ key ∈ order.keys, P key := by
  induction h with
  | nil => exact fun key hkey => hlater key hkey (by simp)
  | @cons last keys hlast hnew hdependencies hsettled ih =>
      have hlastHolds : P last := by
        by_cases hend : last ∈ order.ends
        · exact hends last hend
        · obtain ⟨dependent, hdependent, hwaits⟩ := hwell.exists_dependent hlast hend
          refine hpasses dependent (hlater dependent hdependent ?_) last hwaits
          intro hmem
          rcases List.mem_cons.mp hmem with rfl | hmem
          · exact hnew (hdependencies _ hwaits)
          · exact hnew (hsettled.closed hmem _ hwaits)
      refine ih fun key hkey hkeys => ?_
      by_cases hsame : key = last
      · exact hsame ▸ hlastHolds
      · exact hlater key hkey (by simp [hsame, hkeys])

/-! ## Results -/

/-- Equations that give the result of each key from those of its dependencies have a solution. -/
theorem SettledKeys.exists_result [Nonempty α] {keys : List Key} (h : SettledKeys order keys)
    (compute : Key → List α → α) :
    ∃ result : Key → α, ∀ key ∈ keys,
      result key = compute key ((order.dependencies key).map result) := by
  classical
  induction h with
  | nil => exact ⟨fun _ => Classical.arbitrary α, by simp⟩
  | @cons key keys _ hnew hdependencies hsettled ih =>
      obtain ⟨result, hresult⟩ := ih
      let extended := Function.update result key
        (compute key ((order.dependencies key).map result))
      have hsame : ∀ other ∈ keys, extended other = result other := by
        intro other hother
        refine Function.update_of_ne ?_ _ _
        rintro rfl
        exact hnew hother
      refine ⟨extended, List.forall_mem_cons.mpr ⟨?_, ?_⟩⟩
      · rw [List.map_congr_left fun dependency h => hsame dependency (hdependencies dependency h)]
        exact Function.update_self _ _ _
      · intro other hother
        rw [List.map_congr_left fun dependency h =>
          hsame dependency (hsettled.closed hother dependency h), hsame other hother]
        exact hresult other hother

def resultsOf (order : Order V) (result : Key → α) (places : List Nat) : List (Nat × α) :=
  places.filterMap fun place => (order.keyAt? place).map fun key => (place, result key)

theorem resultAt?_resultsOf (result : Key → α) {places : List Nat} {place : Nat} {key : Key}
    (hplace : place ∈ places) (hkey : order.keyAt? place = some key) :
    resultAt? (order.resultsOf result places) place = some (result key) := by
  induction places with
  | nil => simp at hplace
  | cons first places ih =>
      by_cases hfirst : first = place
      · simp [resultsOf, resultAt?, hfirst, hkey]
      · rw [← ih ((List.mem_cons.mp hplace).resolve_left (Ne.symm hfirst))]
        cases hother : order.keyAt? first with
        | some other => simp [resultsOf, resultAt?, hother, hfirst]
        | none => simp [resultsOf, hother]

theorem Settled.foldPlaces (hwell : order.WellFormed) {fold : Key → List V → List α → α}
    {result : Key → α}
    (hresult : ∀ key ∈ order.keys,
      result key = fold key (order.values key) ((order.dependencies key).map result))
    {placed : List Nat} (h : Settled order placed) :
    order.foldPlaces fold placed.reverse = order.resultsOf result placed.reverse := by
  induction h with
  | nil => rfl
  | @cons place placed hlt _ hsources hsettled ih =>
      obtain ⟨node, -, hkey, -⟩ := keyAt?_of_lt hlt
      have hinputs : (order.dependenciesAt place).filterMap
          (resultAt? (order.resultsOf result placed.reverse)) =
          (order.dependencies node.key).map result := by
        rw [dependencies_of_keyAt? hwell hkey, List.map_filterMap]
        refine List.filterMap_congr fun source hsource => ?_
        obtain ⟨other, -, hother, -⟩ := keyAt?_of_lt (hwell.dependency_lt hsource)
        rw [resultAt?_resultsOf result (List.mem_reverse.mpr (hsources source hsource)) hother,
          hother, Option.map_some]
      rw [List.reverse_cons, Order.foldPlaces, List.foldl_append]
      change order.foldPlace fold (order.foldPlaces fold placed.reverse) place = _
      rw [ih, foldPlace, hwell.entryAt?_eq hkey]
      simp only [hinputs]
      rw [← hresult _ (mem_keys_of_keyAt? hkey)]
      simp [resultsOf, hkey]

/-! ## Visits -/

theorem WellFormed.settled (hwell : order.WellFormed) {places : List Nat}
    (h : order.linearize = .ok places) : Settled order places.reverse := by
  obtain ⟨run, hrun, hanswer⟩ := (hwell.linearizes_iff _).mpr rfl
  have hplaced := hrun.placed hwell (by simp) Settled.nil
  rw [h] at hanswer
  cases run with
  | error loop => cases hanswer
  | ok placed =>
      cases hanswer
      rw [List.reverse_reverse]
      exact hplaced.1

def arrangedKeys (order : Order V) (places : List Nat) : List Key := places.filterMap order.keyAt?

theorem keyAt?_range (order : Order V) :
    (List.range order.nodeCount).filterMap order.keyAt? = order.keys := by
  rw [keys, ← filterMap_range_getElem? order.nodes.toList]
  simp only [Array.length_toList, Array.getElem?_toList]
  rfl

theorem WellFormed.arrangedKeys_perm (hwell : order.WellFormed) {places : List Nat}
    (h : order.linearize = .ok places) : (order.arrangedKeys places).Perm order.keys := by
  rw [← keyAt?_range]
  exact (hwell.arranges h).perm.filterMap _

theorem WellFormed.settledKeys (hwell : order.WellFormed) {places : List Nat}
    (h : order.linearize = .ok places) : SettledKeys order (order.arrangedKeys places).reverse := by
  rw [arrangedKeys, ← List.filterMap_reverse]
  exact (hwell.settled h).keys hwell

theorem WellFormed.linearEntries_eq_map (hwell : order.WellFormed) {places : List Nat}
    (h : order.linearize = .ok places) :
    order.linearEntries.1 =
      .ok ((order.arrangedKeys places).map fun key => (key, order.values key)) := by
  rw [linearEntries_eq, hwell.arrange_eq, h, arrangedKeys, List.map_filterMap]
  refine congrArg Except.ok (List.filterMap_congr fun place _ => ?_)
  cases hkey : order.keyAt? place with
  | some key => exact hwell.entryAt?_eq hkey
  | none =>
      rw [keyAt?, Option.map_eq_none_iff] at hkey
      rw [entryAt?, hkey]
      rfl

theorem visit_eq_arrange (order : Order V) (fold : Key → List V → List α → α) :
    (order.visit fold).1 = order.arrange.1.map fun places =>
      ((order.foldPlaces fold places).map (·.2),
        ((List.range order.nodeCount).filter fun place => !order.hasDependents place).filterMap
          (resultAt? (order.foldPlaces fold places))) := by
  cases harranged : order.arranged with
  | some places =>
      simp only [visit, arrange, harranged]
  | none =>
      simp only [visit, arrange, harranged]
      cases order.linearize <;> rfl

/-- A visit computes one result for each key from those of its dependencies, and gives the results
of the keys that nothing waits for. -/
theorem WellFormed.visit_eq (hwell : order.WellFormed) {places : List Nat}
    (h : order.linearize = .ok places) {fold : Key → List V → List α → α} {result : Key → α}
    (hresult : ∀ key ∈ order.keys,
      result key = fold key (order.values key) ((order.dependencies key).map result)) :
    (order.visit fold).1 =
      .ok ((order.arrangedKeys places).map result, order.ends.map result) := by
  have hfold := (hwell.settled h).foldPlaces hwell hresult
  rw [List.reverse_reverse] at hfold
  have hplaces : ∀ place, place < order.nodeCount → place ∈ places := by
    intro place hplace
    exact (hwell.arranges h).perm.mem_iff.mpr (List.mem_range.mpr hplace)
  have hall : (order.resultsOf result places).map (·.2) =
      (order.arrangedKeys places).map result := by
    simp [resultsOf, arrangedKeys, List.map_filterMap, Function.comp_def]
  have hends : ((List.range order.nodeCount).filter fun place =>
        !order.hasDependents place).filterMap (resultAt? (order.resultsOf result places)) =
      order.ends.map result := by
    rw [ends, List.map_filterMap]
    refine List.filterMap_congr fun place hplace => ?_
    have hlt := List.mem_range.mp (List.mem_filter.mp hplace).1
    obtain ⟨node, -, hkey, -⟩ := keyAt?_of_lt hlt
    rw [resultAt?_resultsOf result (hplaces place hlt) hkey, hkey, Option.map_some]
  rw [visit_eq_arrange, hwell.arrange_eq, h]
  simp only [Except.map, hfold, hall, hends]

end Runbook.Order
