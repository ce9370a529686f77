import Runbook.Proofs.Order.Folding

/-!
# Paths between keys

Links read as a relation between keys: which keys come before which, directly or along a path, and
which keys some keys need.  Between the keys of a well-formed order these are the paths of its graph,
and where one key comes before another, every linear reading has their values in that order.
-/

namespace Runbook.Order

open Relation

variable {V : Type} {order : Order V} {keys : List Key}

def LeadsTo (order : Order V) : Key → Key → Prop :=
  ReflTransGen fun source target => source ∈ order.dependencies target

def ComesBefore (order : Order V) : Key → Key → Prop :=
  TransGen fun source target => source ∈ order.dependencies target

def Needs (order : Order V) (targets : List Key) (key : Key) : Prop :=
  ∃ target ∈ targets, order.LeadsTo key target

def Closed (order : Order V) (member : Key → Prop) : Prop :=
  ∀ key, member key → ∀ dependency ∈ order.dependencies key, member dependency

/-! ## Needed keys -/

theorem Closed.of_leadsTo {member : Key → Prop} (h : order.Closed member) {source target : Key}
    (hpath : order.LeadsTo source target) (htarget : member target) : member source := by
  induction hpath using ReflTransGen.head_induction_on with
  | refl => exact htarget
  | head hstep _ ih => exact h _ ih _ hstep

theorem closed_needs (order : Order V) (targets : List Key) : order.Closed (order.Needs targets) := by
  rintro key ⟨target, htarget, hpath⟩ dependency hdependency
  exact ⟨target, htarget, .head hdependency hpath⟩

theorem needs_of_mem {targets : List Key} {key : Key} (h : key ∈ targets) :
    order.Needs targets key :=
  ⟨key, h, .refl⟩

theorem needs_append {targets others : List Key} {key : Key} :
    order.Needs (targets ++ others) key ↔ order.Needs targets key ∨ order.Needs others key := by
  simp [Needs, or_and_right, exists_or]

theorem needs_singleton {target key : Key} :
    order.Needs [target] key ↔ key = target ∨ order.Needs (order.dependencies target) key := by
  have hcases : order.LeadsTo key target ↔
      target = key ∨ ∃ source, order.LeadsTo key source ∧ source ∈ order.dependencies target :=
    ReflTransGen.cases_tail_iff _ key target
  simp only [Needs, List.mem_singleton, exists_eq_left, hcases, eq_comm (a := target)]
  exact or_congr_right ⟨fun ⟨source, hpath, hmem⟩ => ⟨source, hmem, hpath⟩,
    fun ⟨source, hmem, hpath⟩ => ⟨source, hpath, hmem⟩⟩

theorem SettledKeys.pairwise (h : SettledKeys order keys) :
    keys.Pairwise fun later earlier => ¬ order.LeadsTo later earlier := by
  induction h with
  | nil => exact List.Pairwise.nil
  | @cons key keys _ hnew _ hsettled ih =>
      refine List.pairwise_cons.mpr ⟨fun earlier hearlier hpath => hnew ?_, ih⟩
      exact Closed.of_leadsTo (fun _ hmem => hsettled.closed hmem) hpath hearlier

theorem WellFormed.needs_ends (hwell : order.WellFormed) {places : List Nat}
    (hplaces : order.linearize = .ok places) : ∀ key ∈ order.keys, order.Needs order.ends key := by
  refine (hwell.settledKeys hplaces).of_ends hwell (fun key => needs_of_mem)
    (order.closed_needs order.ends) fun key hkey hnot => ?_
  exact absurd (List.mem_reverse.mpr ((hwell.arrangedKeys_perm hplaces).mem_iff.mpr hkey)) hnot

/-! ## Paths of the graph -/

theorem WellFormed.mem_dependencies (hwell : order.WellFormed) {source target : Key} :
    source ∈ order.dependencies target ↔ ∃ first second,
      order.keyAt? first = some source ∧ order.keyAt? second = some target ∧
      order.Linked first second := by
  constructor
  · intro hsource
    rw [dependencies] at hsource
    split at hsource
    · next second hsecond =>
      obtain ⟨first, hfirst, hkey⟩ := List.mem_filterMap.mp hsource
      exact ⟨first, second, hkey, keyAt?_place? hsecond, mem_dependenciesAt.mp hfirst⟩
    · simp at hsource
  · rintro ⟨first, second, hfirst, hsecond, hlinked⟩
    rw [dependencies_of_keyAt? hwell hsecond]
    exact List.mem_filterMap.mpr ⟨first, mem_dependenciesAt.mpr hlinked, hfirst⟩

theorem WellFormed.place_unique (hwell : order.WellFormed) {first second : Nat} {key : Key}
    (hfirst : order.keyAt? first = some key) (hsecond : order.keyAt? second = some key) :
    first = second := by
  rw [hwell.keyAt?_iff] at hfirst hsecond
  exact Option.some.inj (hfirst.symm.trans hsecond)

theorem WellFormed.comesBefore_iff (hwell : order.WellFormed) {source target : Key} :
    order.ComesBefore source target ↔ ∃ first second,
      order.keyAt? first = some source ∧ order.keyAt? second = some target ∧
      order.Precedes first second := by
  constructor
  · intro hpath
    induction hpath with
    | single hstep =>
        obtain ⟨first, second, hfirst, hsecond, hlinked⟩ := hwell.mem_dependencies.mp hstep
        exact ⟨first, second, hfirst, hsecond, .single hlinked⟩
    | tail _ hstep ih =>
        obtain ⟨first, second, hfirst, hsecond, hpath⟩ := ih
        obtain ⟨middle, third, hmiddle, hthird, hlinked⟩ := hwell.mem_dependencies.mp hstep
        obtain rfl := hwell.place_unique hsecond hmiddle
        exact ⟨first, third, hfirst, hthird, .tail hpath hlinked⟩
  · rintro ⟨first, second, hfirst, hsecond, hpath⟩
    induction hpath generalizing target with
    | single hlinked =>
        exact .single (hwell.mem_dependencies.mpr ⟨first, _, hfirst, hsecond, hlinked⟩)
    | tail _ hlinked ih =>
        obtain ⟨node, -, hmiddle, -⟩ := keyAt?_of_lt (hwell.linked_lt hlinked).1
        exact .tail (ih hmiddle)
          (hwell.mem_dependencies.mpr ⟨_, _, hmiddle, hsecond, hlinked⟩)

theorem WellFormed.acyclic_iff (hwell : order.WellFormed) :
    order.Acyclic ↔ ∀ key, ¬ order.ComesBefore key key := by
  constructor
  · intro hacyclic key hcycle
    obtain ⟨first, second, hfirst, hsecond, hpath⟩ := hwell.comesBefore_iff.mp hcycle
    obtain rfl := hwell.place_unique hfirst hsecond
    exact hacyclic first hpath
  · intro hkeys place hcycle
    obtain ⟨next, hfirst, -⟩ := TransGen.head'_iff.mp hcycle
    obtain ⟨node, -, hkey, -⟩ := keyAt?_of_lt (hwell.linked_lt hfirst).1
    exact hkeys node.key (hwell.comesBefore_iff.mpr ⟨place, place, hkey, hkey, hcycle⟩)

/-! ## Linear readings -/

def ListsBefore (order : Order V) (source target : Key) : Prop :=
  ∀ values, order.toLinearList.1 = .ok values →
    ∃ before between behind,
      order.linearEntries.1 = .ok (before ++ (source, order.values source) ::
        (between ++ (target, order.values target) :: behind)) ∧
      values = before.flatMap (·.2) ++ order.values source ++ between.flatMap (·.2) ++
        order.values target ++ behind.flatMap (·.2)

private theorem split_of_idxOf_lt {places : List Nat} {first second : Nat}
    (hlt : places.idxOf first < places.idxOf second) (hmem : second ∈ places) :
    ∃ before between behind, places = before ++ first :: (between ++ second :: behind) := by
  have hfirst : first ∈ places :=
    List.idxOf_lt_length_iff.mp (hlt.trans (List.idxOf_lt_length_iff.mpr hmem))
  obtain ⟨before, rest, rfl, hnot⟩ := List.eq_append_cons_of_mem hfirst
  have hbefore : second ∉ before := by
    intro hearly
    rw [List.idxOf_append_of_notMem hnot, List.idxOf_append_of_mem hearly] at hlt
    have := List.idxOf_lt_length_iff.mpr hearly
    omega
  have hdifferent : second ≠ first := by
    rintro rfl
    exact Nat.lt_irrefl _ hlt
  have hrest : second ∈ rest := by
    simpa [hbefore, hdifferent] using hmem
  obtain ⟨between, behind, rfl⟩ := List.append_of_mem hrest
  exact ⟨before, between, behind, rfl⟩

theorem WellFormed.listsBefore (hwell : order.WellFormed) {source target : Key}
    (hpath : order.ComesBefore source target) : order.ListsBefore source target := by
  intro values hvalues
  obtain ⟨first, second, hfirst, hsecond, hpath⟩ := hwell.comesBefore_iff.mp hpath
  rw [toLinearList_eq, linearEntries_eq, hwell.arrange_eq] at hvalues
  cases hplaces : order.linearize with
  | error error => simp [hplaces, Except.map] at hvalues
  | ok places =>
      have harranges := hwell.arranges hplaces
      have hmem : second ∈ places :=
        harranges.perm.mem_iff.mpr (List.mem_range.mpr (keyAt?_lt hsecond))
      obtain ⟨before, between, behind, hsplit⟩ :=
        split_of_idxOf_lt (harranges.precedes hpath) hmem
      refine ⟨before.filterMap order.entryAt?, between.filterMap order.entryAt?,
        behind.filterMap order.entryAt?, ?_, ?_⟩
      · rw [linearEntries_eq, hwell.arrange_eq, hplaces, hsplit]
        simp [Except.map, hwell.entryAt?_eq hfirst, hwell.entryAt?_eq hsecond]
      · simp only [hplaces, Except.map, Except.ok.injEq] at hvalues
        rw [← hvalues, hsplit]
        simp [hwell.entryAt?_eq hfirst, hwell.entryAt?_eq hsecond]

end Runbook.Order
