import Runbook.Proofs.Decision.Arena
import Runbook.Proofs.Decision.Relabeling

/-!
# Order of items

Rules are regrouped at every level of a tree, and a walk collects their items level by level.  Rules
that ask for the same stay together on the way down, so that their items are met in the order of the
rules; items of rules without conditions are met first.
-/

namespace Runbook.Decision

open Variable

variable {ι τ : Type}

/-! ## Rules that ask for the same -/

private theorem find?_eraseP {α : Type} {erased wanted : α → Bool}
    (h : ∀ member, erased member → wanted member = false) (members : List α) :
    (members.eraseP erased).find? wanted = members.find? wanted := by
  induction members with
  | nil => rfl
  | cons member members ih =>
      by_cases herased : erased member
      · rw [List.eraseP_cons_of_pos herased, List.find?_cons_of_neg (by simp [h member herased])]
      · rw [List.eraseP_cons_of_neg herased, List.find?_cons, List.find?_cons, ih]

namespace Rule

def Alike (first second : Rule ι τ) : Prop :=
  ∀ subject, first.asks? subject = second.asks? subject

variable {first second rule : Rule ι τ} {subject : Variable ι} {value : Value}

theorem asks?_without (hseparate : Separate (rule.conditions.map (·.subject)))
    (hasks : rule.asks? subject = some value) (other : Variable ι) :
    (rule.without subject).asks? other =
      if subject.same other then none else rule.asks? other := by
  split
  · next hsame =>
    rw [asks?, askedValue?, Option.map_eq_none_iff, List.find?_eq_none]
    intro condition hcondition hother
    have hdifferent := unasked_without hseparate hasks condition hcondition
    rw [same_comm] at hother
    rw [same_trans hsame hother] at hdifferent
    cases hdifferent
  · next hdifferent =>
    have hkept : ∀ condition : Condition ι, condition.subject.same subject →
        condition.subject.same other = false := by
      intro condition hsame
      rw [same_comm] at hsame
      simpa using fun hother => hdifferent (same_trans hsame hother)
    rw [asks?, asks?, askedValue?, askedValue?, without, find?_eraseP hkept]

theorem Alike.without (h : first.Alike second)
    (hfirst : Separate (first.conditions.map (·.subject)))
    (hsecond : Separate (second.conditions.map (·.subject)))
    (hasks : first.asks? subject = some value) :
    (first.without subject).Alike (second.without subject) := by
  intro other
  rw [asks?_without hfirst hasks, asks?_without hsecond ((h subject).symm.trans hasks), h other]

theorem conditions_ne_nil_of_asks (hasks : rule.asks? subject = some value) :
    rule.conditions ≠ [] := by
  intro hnil
  rw [asks?, hnil] at hasks
  cases hasks

theorem Alike.conditions_eq_nil (h : first.Alike second) (hfirst : first.conditions = []) :
    second.conditions = [] := by
  refine List.eq_nil_iff_forall_not_mem.mpr fun condition hcondition => ?_
  have hnone : second.asks? condition.subject = none := by
    rw [← h, asks?, hfirst]
    rfl
  rw [asks?, askedValue?, Option.map_eq_none_iff, List.find?_eq_none] at hnone
  exact hnone condition hcondition (same_refl _)

end Rule

/-! ## Rules on the way down -/

/-- Whether rules stand in the order of their items, and items of rules that do not ask for the same
are in order either way. -/
structure Stable (inOrder : τ → τ → Prop) (rules : List (Rule ι τ)) : Prop where
  alike : ∀ first ∈ rules, ∀ second ∈ rules, first.Alike second ∨ inOrder first.item second.item
  sorted : rules.Pairwise fun first second => inOrder first.item second.item

section

variable {inOrder : τ → τ → Prop} {known : Variable ι → Prop} {way : List (Edge ι)}
  {rules others : List (Rule ι τ)} {subject : Variable ι} {value : Value}

namespace Stable

theorem of_sublist (h : Stable inOrder rules) (hsub : others.Sublist rules) :
    Stable inOrder others :=
  ⟨fun first hfirst second hsecond => h.alike first (hsub.subset hfirst) second
    (hsub.subset hsecond), h.sorted.sublist hsub⟩

theorem apart (h : Stable inOrder rules) {first second : Rule ι τ} (hfirst : first ∈ rules)
    (hsecond : second ∈ rules) (hasks : first.asks? subject ≠ second.asks? subject) :
    inOrder first.item second.item :=
  (h.alike first hfirst second hsecond).resolve_left fun halike => hasks (halike subject)

private theorem unconditional_first (h : Stable inOrder rules) {first second : Rule ι τ}
    (hfirst : first ∈ rules) (hsecond : second ∈ rules) (hnone : first.conditions = [])
    (hsome : second.conditions ≠ []) : inOrder first.item second.item :=
  (h.alike first hfirst second hsecond).resolve_left fun halike =>
    hsome (halike.conditions_eq_nil hnone)

theorem filterMap (h : Stable inOrder rules) {pick : Rule ι τ → Option (Rule ι τ)}
    (hitem : ∀ rule kept, pick rule = some kept → kept.item = rule.item)
    (halike : ∀ first ∈ rules, ∀ second ∈ rules, first.Alike second → ∀ kept other,
      pick first = some kept → pick second = some other → kept.Alike other) :
    Stable inOrder (rules.filterMap pick) where
  alike kept hkept other hother := by
    obtain ⟨first, hfirst, hpick⟩ := List.mem_filterMap.mp hkept
    obtain ⟨second, hsecond, hpicked⟩ := List.mem_filterMap.mp hother
    rw [hitem first kept hpick, hitem second other hpicked]
    exact (h.alike first hfirst second hsecond).imp_left fun hsame =>
      halike first hfirst second hsecond hsame kept other hpick hpicked
  sorted := by
    rw [List.pairwise_filterMap]
    refine h.sorted.imp fun {first second} hsorted kept hpick other hpicked => ?_
    rwa [hitem first kept hpick, hitem second other hpicked]

theorem settle (h : Stable inOrder rules) (hopen : Open known way rules) :
    Stable inOrder (settle rules subject value) := by
  refine h.filterMap (fun rule kept hpick => ?_) ?_
  · split at hpick
    · cases hpick
      rfl
    · split at hpick
      · cases hpick
        rfl
      · cases hpick
  · intro first hfirst second hsecond halike kept other hpick hpicked
    rw [← halike subject] at hpicked
    cases hasks : first.asks? subject with
    | none =>
        simp only [hasks, Option.some.injEq] at hpick hpicked
        rwa [← hpick, ← hpicked]
    | some asked =>
        simp only [hasks, Option.ite_none_right_eq_some, Option.some.injEq] at hpick hpicked
        rw [← hpick.2, ← hpicked.2]
        exact halike.without (hopen.separate first hfirst) (hopen.separate second hsecond) hasks

theorem askingFor (h : Stable inOrder rules) (hopen : Open known way rules) :
    Stable inOrder (askingFor rules subject value) := by
  have hpicks : Decision.askingFor rules subject value = rules.filterMap fun rule =>
      if rule.asks? subject = some value then some (rule.without subject) else none := by
    rw [Decision.askingFor, ← List.filterMap_eq_map, List.filterMap_filter]
    simp
  rw [hpicks]
  refine h.filterMap (fun rule kept hpick => ?_) ?_
  · obtain ⟨-, hkept⟩ := Option.ite_none_right_eq_some.mp hpick
    cases hkept
    rfl
  · intro first hfirst second hsecond halike kept other hpick hpicked
    obtain ⟨hasks, hkept⟩ := Option.ite_none_right_eq_some.mp hpick
    obtain ⟨-, hother⟩ := Option.ite_none_right_eq_some.mp hpicked
    cases hkept
    cases hother
    exact halike.without (hopen.separate first hfirst) (hopen.separate second hsecond) hasks

theorem conditional (h : Stable inOrder rules) : Stable inOrder (conditionalOn rules subject) :=
  h.of_sublist (List.filter_sublist.trans List.filter_sublist)

theorem branch (h : Stable inOrder rules) (hopen : Open known way rules) :
    Stable inOrder (Decision.askingFor rules subject value ++ conditionalOn rules subject) := by
  have hasking : Stable inOrder (Decision.askingFor rules subject value) := h.askingFor hopen
  have hconditional : Stable inOrder (conditionalOn rules subject) := h.conditional
  -- one of the two asks for the variable and the other does not, so they are in order either way
  have hpass : ∀ first ∈ Decision.askingFor rules subject value,
      ∀ second ∈ conditionalOn rules subject,
        inOrder first.item second.item ∧ inOrder second.item first.item := by
    intro first hfirst second hsecond
    obtain ⟨asking, hmem, hasks, rfl⟩ := mem_askingFor.mp hfirst
    obtain ⟨hsilent, hnone⟩ := List.mem_filter.mp (List.mem_filter.mp hsecond).1
    rw [Option.isNone_iff_eq_none] at hnone
    have hdifferent : asking.asks? subject ≠ second.asks? subject := by
      rw [hasks, hnone]
      exact Option.some_ne_none value
    have hbefore : inOrder asking.item second.item := h.apart hmem hsilent hdifferent
    have hbehind : inOrder second.item asking.item := h.apart hsilent hmem hdifferent.symm
    exact ⟨hbefore, hbehind⟩
  constructor
  · intro first hfirst second hsecond
    rcases List.mem_append.mp hfirst with hfirst | hfirst <;>
      rcases List.mem_append.mp hsecond with hsecond | hsecond
    · exact hasking.alike first hfirst second hsecond
    · exact .inr (hpass first hfirst second hsecond).1
    · exact .inr (hpass second hsecond first hfirst).2
    · exact hconditional.alike first hfirst second hsecond
  · exact List.pairwise_append.mpr ⟨hasking.sorted, hconditional.sorted,
      fun first hfirst second hsecond => (hpass first hfirst second hsecond).1⟩

end Stable

/-! ## Items on the way down -/

abbrev conditionalRules (rules : List (Rule ι τ)) : List (Rule ι τ) :=
  rules.filter (!isUnconditional ·)

private theorem items_settle (rules : List (Rule ι τ)) (subject : Variable ι) (value : Value) :
    (settle rules subject value).map (·.item) ⊆ rules.map (·.item) := by
  intro item hitem
  obtain ⟨kept, hkept, rfl⟩ := List.mem_map.mp hitem
  obtain ⟨rule, hrule, ⟨-, rfl⟩ | ⟨-, rfl⟩⟩ := mem_settle.mp hkept
  · exact List.mem_map_of_mem hrule
  · exact List.mem_map.mpr ⟨rule, hrule, rfl⟩

theorem items_conditional (rules : List (Rule ι τ)) (subject : Variable ι) :
    (conditionalOn rules subject).map (·.item) ⊆ (conditionalRules rules).map (·.item) :=
  List.map_subset _ ((List.filter_sublist.filter _).subset)

private theorem items_branch (rules : List (Rule ι τ)) (subject : Variable ι) (value : Value) :
    (askingFor rules subject value ++ conditionalOn rules subject).map (·.item) ⊆
      (conditionalRules rules).map (·.item) := by
  rw [List.map_append]
  refine List.append_subset.mpr ⟨fun item hitem => ?_, items_conditional rules subject⟩
  obtain ⟨kept, hkept, rfl⟩ := List.mem_map.mp hitem
  obtain ⟨rule, hrule, hasks, rfl⟩ := mem_askingFor.mp hkept
  have hsome : !isUnconditional rule := by
    simpa [isUnconditional] using Rule.conditions_ne_nil_of_asks hasks
  exact List.mem_map.mpr ⟨rule, List.mem_filter.mpr ⟨hrule, hsome⟩, rfl⟩

namespace Tree

/-- Whether every walk through a tree collects items of rules, in order. -/
def Gathers (inOrder : τ → τ → Prop) (rules : List (Rule ι τ)) (tree : Tree ι τ) : Prop :=
  ∀ collected, ∀ walk ∈ tree.ends collected, ∃ below, walk.items = collected ++ below ∧
    below ⊆ rules.map (·.item) ∧ below.Pairwise inOrder

theorem Gathers.mono {tree : Tree ι τ} (h : tree.Gathers inOrder others)
    (hitems : others.map (·.item) ⊆ rules.map (·.item)) : tree.Gathers inOrder rules := by
  intro collected walk hwalk
  obtain ⟨below, hbelow, hmem, hsorted⟩ := h collected walk hwalk
  exact ⟨below, hbelow, List.Subset.trans hmem hitems, hsorted⟩

theorem Gathers.leaf (hstable : Stable inOrder rules) (id : Nat) :
    (Tree.leaf id (rules.map (·.item)) : Tree ι τ).Gathers inOrder rules := by
  intro collected walk hwalk
  rw [List.mem_singleton.mp hwalk]
  exact ⟨_, rfl, List.Subset.refl _, List.pairwise_map.mpr hstable.sorted⟩

theorem Gathers.split (hstable : Stable inOrder rules) (id : Nat) (subject : Variable ι)
    {branches : List (Value × Tree ι τ)} {otherwise : Option (Tree ι τ)}
    (hrows : ∀ row ∈ rows branches otherwise, row.2.Gathers inOrder (conditionalRules rules)) :
    (Tree.split id subject (((silentOn rules subject).filter isUnconditional).map (·.item))
      branches otherwise).Gathers inOrder rules := by
  have hsub : ((silentOn rules subject).filter isUnconditional).Sublist rules :=
    List.filter_sublist.trans List.filter_sublist
  have hown : (((silentOn rules subject).filter isUnconditional).map (·.item)).Pairwise inOrder :=
    List.pairwise_map.mpr (hstable.sorted.sublist hsub)
  intro collected walk hwalk
  rcases mem_ends_split hwalk with rfl | ⟨row, hrow, hends⟩
  · exact ⟨_, rfl, List.map_subset _ hsub.subset, hown⟩
  · obtain ⟨below, hbelow, hmem, hsorted⟩ := hrows row hrow _ walk hends
    have hall : below ⊆ rules.map (·.item) :=
      List.Subset.trans hmem (List.map_subset _ List.filter_sublist.subset)
    refine ⟨_, by rw [hbelow, List.append_assoc],
      List.append_subset.mpr ⟨List.map_subset _ hsub.subset, hall⟩,
      List.pairwise_append.mpr ⟨hown, hsorted, fun item hitem other hother => ?_⟩⟩
    obtain ⟨first, hfirst, rfl⟩ := List.mem_map.mp hitem
    obtain ⟨second, hsecond, rfl⟩ := List.mem_map.mp (hmem hother)
    obtain ⟨hrule, hsome⟩ := List.mem_filter.mp hsecond
    exact hstable.unconditional_first (hsub.subset hfirst) hrule
      (by simpa [isUnconditional] using (List.mem_filter.mp hfirst).2)
      (by simpa [isUnconditional] using hsome)

end Tree

theorem Branches.forall_mem {κ : Type} {P : κ → Tree ι τ → Nat → Nat → Prop} {keys : List κ}
    {branches : List (κ × Tree ι τ)} {first last : Nat} (h : Branches P keys branches first last) :
    ∀ branch ∈ branches, ∃ lower upper, P branch.1 branch.2 lower upper := by
  induction h with
  | nil => simp
  | cons htree _ ih => exact List.forall_mem_cons.mpr ⟨⟨_, _, htree⟩, ih⟩

/-- The tree of stable rules gathers their items, by recursion over the levels of its
compilation. -/
private theorem compile_gathers (limit : Option Nat) (fuel : Nat) (hopen : Open known way rules)
    (hstable : Stable inOrder rules) {assumptions : Assumptions ι} {progress last : Progress ι}
    {tree : Tree ι τ} (h : compile limit fuel rules assumptions progress = .ok tree last) :
    tree.Gathers inOrder rules := by
  induction fuel generalizing rules way assumptions progress last tree with
  | zero =>
      obtain ⟨rfl, -⟩ := leaf_ok h
      exact .leaf hstable _
  | succ fuel ih =>
      cases compile_ok h with
      | leaf => exact .leaf hstable _
      | settled _ _ _ h =>
          exact (ih hopen.settle (hstable.settle hopen) h).mono (items_settle _ _ _)
      | @split subject _ made below _ otherwise _ _ _ hotherwise hbranches =>
          have hbranch := hbranches.imp (Q := fun _ tree _ _ =>
              tree.Gathers inOrder (conditionalRules rules)) <| by
            rintro value tree lower upper ⟨start, final, -, -, htree⟩
            exact (ih hopen.branch (hstable.branch hopen) htree).mono (items_branch _ _ _)
          have hrest : (otherwise = none ∧ below.nodes = made.nodes) ∨ ∃ tree,
              otherwise = some tree ∧ tree.Gathers inOrder (conditionalRules rules) := by
            rcases hotherwise with ⟨hnone, -, rfl⟩ | ⟨tree, hsome, htree⟩
            · exact .inl ⟨hnone, rfl⟩
            · have hbelow := ih (hopen.conditional none) hstable.conditional htree
              exact .inr ⟨tree, hsome, hbelow.mono (items_conditional _ _)⟩
          obtain ⟨keys, hrows⟩ := Branches.rows (P := fun _ tree _ _ =>
            tree.Gathers inOrder (conditionalRules rules)) hrest hbranch
          refine .split hstable _ subject fun row hrow => ?_
          obtain ⟨-, -, hgathers⟩ := hrows.forall_mem row hrow
          exact hgathers

/-! ## Items that come first -/

mutual

theorem Tree.prefix_of_mem_ends {collected : List τ} {tree : Tree ι τ} {walk : WalkEnd τ}
    (h : walk ∈ tree.ends collected) : collected <+: walk.items := by
  cases tree with
  | leaf id items =>
      rw [List.mem_singleton.mp h]
      exact List.prefix_append _ _
  | split id subject items branches otherwise =>
      refine (List.prefix_append collected items).trans ?_
      rw [ends, List.mem_cons, List.mem_append] at h
      rcases h with rfl | hends | hends
      · exact List.prefix_rfl
      · cases otherwise with
        | none => cases hends
        | some tree =>
            have hbelow : walk ∈ tree.ends (collected ++ items) := hends
            exact prefix_of_mem_ends hbelow
      · exact prefix_of_mem_branchEnds hends

theorem Tree.prefix_of_mem_branchEnds {collected : List τ} {branches : List (Value × Tree ι τ)}
    {walk : WalkEnd τ} (h : walk ∈ branchEnds collected branches) : collected <+: walk.items := by
  cases branches with
  | nil => cases h
  | cons branch branches =>
      obtain ⟨value, tree⟩ := branch
      rcases List.mem_append.mp h with hends | hends
      · exact prefix_of_mem_ends hends
      · exact prefix_of_mem_branchEnds hends

end

private theorem pinnedValue_nil (subject : Variable ι) (progress : Progress ι) :
    pinnedValue [] subject progress = .ok none progress := by
  have hpinned : isPinned [] subject = false := by
    cases hdependencies : subject.dependencies with
    | nil => simp [isPinned, hdependencies]
    | cons dependency dependencies =>
        simp [isPinned, hdependencies, assumed?, Variable.find?]
  rw [pinnedValue, hpinned]
  rfl

private theorem unconditional_silentOn (rules : List (Rule ι τ)) (subject : Variable ι) :
    (silentOn rules subject).filter isUnconditional = rules.filter isUnconditional := by
  rw [silentOn, List.filter_filter]
  refine List.filter_congr fun rule _ => ?_
  cases hconditions : rule.conditions with
  | nil => simp [isUnconditional, Rule.asks?, askedValue?, hconditions]
  | cons => simp [isUnconditional, hconditions]

private theorem compile_unconditional {limit : Option Nat} {fuel : Nat}
    (hfuel : conditionCount rules ≤ fuel) {progress last : Progress ι} {tree : Tree ι τ}
    (h : compile limit fuel rules [] progress = .ok tree last) {collected : List τ}
    {walk : WalkEnd τ} (hwalk : walk ∈ tree.ends collected) :
    collected ++ (rules.filter isUnconditional).map (·.item) <+: walk.items := by
  have hleaf : ∀ id, (∀ rule ∈ rules, rule.conditions = []) →
      walk ∈ (Tree.leaf id (rules.map (·.item)) : Tree ι τ).ends collected →
      collected ++ (rules.filter isUnconditional).map (·.item) <+: walk.items := by
    intro id hnone hwalk
    have hall : rules.filter isUnconditional = rules :=
      List.filter_eq_self.mpr fun rule hrule => by simp [isUnconditional, hnone rule hrule]
    simp [hall, List.mem_singleton.mp hwalk]
  cases fuel with
  | zero =>
      obtain ⟨rfl, -⟩ := leaf_ok h
      exact hleaf _ (conditions_of_conditionCount_eq_zero (Nat.eq_zero_of_le_zero hfuel)) hwalk
  | succ fuel =>
      -- a level does not tell why its variable was settled, and here none can be
      rw [compile] at h
      cases hpick : pickSplit rules with
      | none =>
          simp only [hpick] at h
          obtain ⟨rfl, -⟩ := leaf_ok h
          exact hleaf _ (conditions_of_pickSplit_none hpick) hwalk
      | some subject =>
          simp only [hpick] at h
          obtain ⟨pinned, next, hpinned, h⟩ := bind_ok h
          rw [pinnedValue_nil] at hpinned
          cases hpinned
          obtain ⟨id, made, -, h⟩ := bind_ok h
          obtain ⟨otherwise, below, h, -⟩ := optional_ok h
          obtain ⟨branches, final, -, h⟩ := bind_ok h
          obtain ⟨rfl, rfl⟩ := pure_ok h
          rw [unconditional_silentOn] at hwalk
          rcases Tree.mem_ends_split hwalk with rfl | ⟨row, -, hends⟩
          · exact List.prefix_rfl
          · exact Tree.prefix_of_mem_ends hends

end

/-! ## Places of rules -/

private theorem map_filter_zipIdx {α : Type} (keep : α → Bool) (members : List α) (start : Nat) :
    ((members.zipIdx start).filter fun placed => keep placed.1).map (·.2) =
      members.findIdxs keep start := by
  induction members generalizing start with
  | nil => rfl
  | cons member members ih =>
      rw [List.zipIdx_cons, List.filter_cons, List.findIdxs_cons]
      split
      · rw [List.map_cons, ih]
      · exact ih _

def placedRules (rules : List (Rule ι τ)) : List (Rule ι (τ × Nat)) :=
  rules.zipIdx.map fun (rule, place) => rule.map (·, place)

/-- Whether a place comes before another one if the rules there ask for the same. -/
def InTurn (rules : List (Rule ι τ)) (place other : Nat) : Prop :=
  place ≠ other ∧ ∀ first second, rules[place]? = some first → rules[other]? = some second →
    first.Alike second → place < other

section

variable {known : Variable ι → Prop} {way : List (Edge ι)} {rules : List (Rule ι τ)}

theorem mem_placedRules {placed : Rule ι (τ × Nat)} (h : placed ∈ placedRules rules) :
    ∃ (rule : Rule ι τ) (place : Nat),
      rules[place]? = some rule ∧ placed = rule.map (·, place) := by
  obtain ⟨⟨rule, place⟩, hrule, rfl⟩ := List.mem_map.mp h
  exact ⟨rule, place, List.mk_mem_zipIdx_iff_getElem?.mp hrule, rfl⟩

private theorem map_fst_placedRules : (placedRules rules).map (Rule.map Prod.fst) = rules := by
  rw [placedRules, List.map_map]
  exact List.zipIdx_map_fst 0 rules

private theorem map_snd_placedRules :
    (placedRules rules).map (·.item.2) = List.range rules.length := by
  rw [placedRules, List.map_map, List.range_eq_range']
  exact List.zipIdx_map_snd 0 rules

theorem places_filter (kept : Rule ι τ → Bool) {keep : Rule ι (τ × Nat) → Bool}
    (h : ∀ (rule : Rule ι τ) place, keep (rule.map (·, place)) = kept rule) :
    (((placedRules rules).filter keep).map (·.item)).map (·.2) = rules.findIdxs kept := by
  rw [placedRules, List.filter_map, List.map_map, List.map_map, ← map_filter_zipIdx]
  exact congrArg _ (List.filter_congr fun placed _ => h placed.1 placed.2)

private theorem open_placedRules (h : Open known way rules) :
    Open known way (placedRules rules) := by
  have hrule : ∀ placed ∈ placedRules rules,
      ∃ rule ∈ rules, placed.conditions = rule.conditions := by
    intro placed hplaced
    obtain ⟨rule, place, hrule, rfl⟩ := mem_placedRules hplaced
    exact ⟨rule, List.mem_of_getElem? hrule, rfl⟩
  constructor
  · intro placed hplaced
    obtain ⟨rule, hmem, hsame⟩ := hrule placed hplaced
    exact hsame ▸ h.separate rule hmem
  · intro placed hplaced
    obtain ⟨rule, hmem, hsame⟩ := hrule placed hplaced
    exact hsame ▸ h.known rule hmem
  · intro placed hplaced
    obtain ⟨rule, hmem, hsame⟩ := hrule placed hplaced
    exact hsame ▸ h.unasked rule hmem

private theorem stable_placedRules :
    Stable (fun first second => InTurn rules first.2 second.2) (placedRules rules) where
  alike first hfirst second hsecond := by
    obtain ⟨rule, place, hrule, rfl⟩ := mem_placedRules hfirst
    obtain ⟨other, behind, hother, rfl⟩ := mem_placedRules hsecond
    by_cases halike : rule.Alike other
    · exact .inl halike
    · refine .inr ⟨fun hsame => halike ?_, fun own another hown hanother hboth => ?_⟩
      · obtain rfl : place = behind := hsame
        rw [hrule] at hother
        cases hother
        exact fun _ => rfl
      · rw [show rules[place]? = some own from hown] at hrule
        rw [show rules[behind]? = some another from hanother] at hother
        cases hrule
        cases hother
        exact absurd hboth halike
  sorted := by
    have hplaces : ((placedRules rules).map (·.item.2)).Pairwise (· < ·) := by
      rw [map_snd_placedRules]
      exact List.pairwise_lt_range
    exact (List.pairwise_map.mp hplaces).imp fun hbefore =>
      ⟨Nat.ne_of_lt hbefore, fun _ _ _ _ _ => hbefore⟩

end

theorem DeciderBuilder.walk_places {builder : DeciderBuilder ι τ} {known : Variable ι → Prop}
    (hopen : Open known [] builder.rules) {tree : Tree ι τ}
    (hbuild : builder.buildTree.outcome = .ok tree) {input : ι} {context : Context ι}
    {walk : WalkEnd τ} (hwalk : tree.walk (.new input) = .ok walk context) :
    ∃ places : List Nat,
      walk.items.map some = places.map (fun place => builder.rules[place]?.map (·.item)) ∧
      builder.rules.findIdxs isUnconditional <+: places ∧
      places.Pairwise (InTurn builder.rules) ∧
      ∀ meant, Coherent meant → Within meant builder.rules →
        places.Perm (builder.rules.findIdxs (·.holdsOn input)) := by
  -- places go down the tree with the items, and are read off at the end of the walk
  let numbered : DeciderBuilder ι (τ × Nat) := ⟨placedRules builder.rules, builder.config⟩
  have hmap : numbered.map Prod.fst = builder :=
    congrArg (DeciderBuilder.mk · builder.config) map_fst_placedRules
  rw [← hmap] at hbuild
  obtain ⟨own, walked, hown, hwalked, rfl⟩ := walk_of_map hbuild hwalk
  obtain ⟨last, hcompile⟩ := buildTree_ok hown
  have hend := Tree.walk_mem_ends [] own hwalked
  obtain ⟨below, hbelow, hmem, hsorted⟩ :=
    compile_gathers _ _ (open_placedRules hopen) stable_placedRules hcompile [] walked hend
  obtain rfl : walked.items = below := hbelow
  refine ⟨walked.items.map (·.2), ?_, ?_, List.pairwise_map.mpr hsorted,
    fun meant hcoherent hwithin => ?_⟩
  · rw [WalkEnd.map, List.map_map, List.map_map]
    refine List.map_congr_left fun item hitem => ?_
    obtain ⟨placed, hplaced, rfl⟩ := List.mem_map.mp (hmem hitem)
    obtain ⟨rule, place, hrule, rfl⟩ := mem_placedRules hplaced
    have hfound : builder.rules[place]?.map (·.item) = some rule.item := by rw [hrule]; rfl
    exact hfound.symm
  · have hfirst := compile_unconditional (Nat.le_refl _) hcompile hend
    rw [List.nil_append] at hfirst
    have hplaces := hfirst.map (·.2)
    rwa [places_filter isUnconditional fun _ _ => rfl] at hplaces
  · have hnumbered : Within meant (placedRules builder.rules) := by
      intro placed hplaced
      obtain ⟨rule, place, hrule, rfl⟩ := mem_placedRules hplaced
      exact hwithin rule (List.mem_of_getElem? hrule)
    have hmeans := compile_means hcoherent _ _ hnumbered (Nat.le_refl _) hcompile
    have hitems := hmeans input [] _ _ walked (by simp [Agrees]) (.new _ input) hwalked
    have hplaces := hitems.map (·.2)
    rwa [List.nil_append, chosen, places_filter (·.holdsOn input) fun _ _ => rfl] at hplaces

/-! ## Rules as given -/

def Asks (conditions : List (Condition ι)) (subject : Variable ι) (value : Value) : Prop :=
  ∃ condition ∈ conditions, condition.subject.same subject ∧ condition.value = value

def SameConditions (conditions others : List (Condition ι)) : Prop :=
  (∀ condition ∈ conditions, Asks others condition.subject condition.value) ∧
    ∀ condition ∈ others, Asks conditions condition.subject condition.value

instance (conditions : List (Condition ι)) (subject : Variable ι) (value : Value) :
    Decidable (Asks conditions subject value) :=
  inferInstanceAs (Decidable (∃ condition ∈ conditions, _ ∧ _))

instance (conditions others : List (Condition ι)) : Decidable (SameConditions conditions others) :=
  inferInstanceAs (Decidable (_ ∧ _))

section

variable {conditions others : List (Condition ι)} {item : τ} {rule : Rule ι τ}

private theorem asks_cons {condition : Condition ι} {subject : Variable ι} {value : Value} :
    Asks (condition :: conditions) subject value ↔
      (condition.subject.same subject ∧ condition.value = value) ∨
        Asks conditions subject value := by
  simp [Asks]

theorem Asks.of_same {subject other : Variable ι} {value : Value}
    (h : Asks conditions subject value) (hsame : subject.same other) :
    Asks conditions other value := by
  obtain ⟨condition, hcondition, hasked, hvalue⟩ := h
  exact ⟨condition, hcondition, same_trans hasked hsame, hvalue⟩

theorem SameConditions.asks_iff (h : SameConditions conditions others) (subject : Variable ι)
    (value : Value) : Asks conditions subject value ↔ Asks others subject value := by
  constructor
  · rintro ⟨condition, hcondition, hsame, rfl⟩
    exact (h.1 condition hcondition).of_same hsame
  · rintro ⟨condition, hcondition, hsame, rfl⟩
    exact (h.2 condition hcondition).of_same hsame

theorem askedValue?_congr (conditions : List (Condition ι)) {subject other : Variable ι}
    (h : subject.same other) : askedValue? conditions subject = askedValue? conditions other := by
  simp only [askedValue?, same_right h]

private theorem takeCondition_asks {collected : List (Condition ι) × Conflicts ι}
    {condition : Condition ι}
    (h : (takeCondition collected condition).2 = []) (subject : Variable ι) (value : Value) :
    askedValue? (takeCondition collected condition).1 subject = some value ↔
      askedValue? collected.1 subject = some value ∨
        (condition.subject.same subject ∧ condition.value = value) := by
  rw [takeCondition] at h ⊢
  cases hasked : askedValue? collected.1 condition.subject with
  | none =>
      have hnew : askedValue? (collected.1 ++ [condition]) subject =
          (askedValue? collected.1 subject).or (askedValue? [condition] subject) := by
        rw [askedValue?, List.find?_append, askedValue?, askedValue?]
        cases collected.1.find? (·.subject.same subject) <;> rfl
      have hlast : askedValue? [condition] subject =
          if condition.subject.same subject then some condition.value else none := by
        rw [askedValue?, List.find?_singleton]
        split <;> rfl
      simp only [hnew, hlast]
      by_cases hsame : condition.subject.same subject
      · rw [← askedValue?_congr collected.1 hsame, hasked]
        simp [hsame]
      · simp [hsame]
  | some first =>
      simp only [hasked] at h ⊢
      by_cases hvalue : first = condition.value
      · rw [if_pos hvalue]
        constructor
        · exact .inl
        · rintro (hasks | ⟨hsame, hequal⟩)
          · exact hasks
          · rw [← askedValue?_congr collected.1 hsame, hasked, hvalue, hequal]
      · rw [if_neg hvalue] at h
        exact absurd h (noteConflict_ne_nil _ _ _ _)

private theorem foldl_takeCondition_asks (conditions : List (Condition ι))
    (collected : List (Condition ι) × Conflicts ι)
    (h : (conditions.foldl takeCondition collected).2 = []) (subject : Variable ι) (value : Value) :
    askedValue? (conditions.foldl takeCondition collected).1 subject = some value ↔
      askedValue? collected.1 subject = some value ∨ Asks conditions subject value := by
  induction conditions generalizing collected with
  | nil => simp [Asks]
  | cons condition conditions ih =>
      have hfirst := foldl_takeCondition_conflicts conditions _ h
      rw [List.foldl_cons, ih _ h, takeCondition_asks hfirst, asks_cons, or_assoc]

theorem Rule.of_asks (h : Rule.of conditions item = .ok rule) (subject : Variable ι)
    (value : Value) : rule.asks? subject = some value ↔ Asks conditions subject value := by
  have hasks := foldl_takeCondition_asks conditions ([], [])
  rw [Rule.of] at h
  split at h
  · next kept hkept =>
    cases h
    rw [hkept] at hasks
    rw [Rule.asks?, hasks rfl]
    simp [askedValue?]
  · cases h

theorem Rule.of_isUnconditional (h : Rule.of conditions item = .ok rule) :
    isUnconditional rule = conditions.isEmpty := by
  cases conditions with
  | nil =>
      cases h
      rfl
  | cons condition conditions =>
      have hasks := (Rule.of_asks h condition.subject condition.value).mpr
        ⟨condition, List.mem_cons_self, same_refl _, rfl⟩
      simpa [isUnconditional] using Rule.conditions_ne_nil_of_asks hasks

theorem Rule.of_alike {second : τ} {other : Rule ι τ} (h : Rule.of conditions item = .ok rule)
    (hother : Rule.of others second = .ok other) (hsame : SameConditions conditions others) :
    rule.Alike other := by
  intro subject
  refine Option.ext fun value => ?_
  rw [Rule.of_asks h, Rule.of_asks hother, hsame.asks_iff]

theorem Rule.of_item (h : Rule.of conditions item = .ok rule) : rule.item = item := by
  rw [Rule.of] at h
  split at h
  · cases h
    rfl
  · cases h

end

end Runbook.Decision
