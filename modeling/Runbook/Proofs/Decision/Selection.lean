import Runbook.Proofs.Decision.Compilation
import Mathlib.Data.List.Nodup

/-!
# Decisions

What a decider makes its output from: the items of exactly those rules all of whose conditions hold
on the input, as the rules were given.
-/

namespace Runbook.Decision

open Variable

variable {ι τ π ω : Type}

/-! ## Rules as given -/

abbrev Entry (ι τ : Type) := List (Condition ι) × τ

def Mentioned (entries : List (Entry ι τ)) (subject : Variable ι) : Prop :=
  ∃ entry ∈ entries, ∃ condition ∈ entry.1,
    Relation.ReflTransGen (fun a b => b ∈ a.dependencies) condition.subject subject

/-- Variables that are the same compute the same function. -/
def Consistent (entries : List (Entry ι τ)) : Prop :=
  ∀ a b, Mentioned entries a → Mentioned entries b → a.same b →
    ∀ input, a.valueOn input = b.valueOn input

def selected (input : ι) (entries : List (Entry ι τ)) : List τ :=
  (entries.filter fun entry => entry.1.all (·.holdsOn input)).map (·.2)

theorem Consistent.coherent {entries : List (Entry ι τ)} (h : Consistent entries) :
    Coherent (Mentioned entries) := by
  refine ⟨?_, h⟩
  rintro subject ⟨entry, hentry, condition, hcondition, hpath⟩ dependency hdependency
  exact ⟨entry, hentry, condition, hcondition, hpath.tail hdependency⟩

theorem mentioned_of_condition {entries : List (Entry ι τ)} {entry : Entry ι τ}
    (hentry : entry ∈ entries) {condition : Condition ι} (hcondition : condition ∈ entry.1) :
    Mentioned entries condition.subject :=
  ⟨entry, hentry, condition, hcondition, .refl⟩

/-! ## Making rules -/

theorem noteConflict_ne_nil (subject : Variable ι) (first value : Value)
    (conflicts : Conflicts ι) : noteConflict subject first value conflicts ≠ [] := by
  cases conflicts with
  | nil => simp [noteConflict]
  | cons conflict conflicts =>
      rw [noteConflict]
      split <;> simp

theorem foldl_takeCondition_conflicts (conditions : List (Condition ι))
    (collected : List (Condition ι) × Conflicts ι)
    (h : (conditions.foldl takeCondition collected).2 = []) : collected.2 = [] := by
  induction conditions generalizing collected with
  | nil => exact h
  | cons condition conditions ih =>
      have hfirst := ih _ h
      rw [takeCondition] at hfirst
      split at hfirst
      · exact hfirst
      · split at hfirst
        · exact hfirst
        · exact absurd hfirst (noteConflict_ne_nil _ _ _ _)

section

variable {known : Variable ι → Prop}

private theorem takeCondition_holds (input : ι) (hcoherent : Coherent known)
    {collected : List (Condition ι) × Conflicts ι} {condition : Condition ι}
    (hcollected : ∀ earlier ∈ collected.1, known earlier.subject)
    (hcondition : known condition.subject) (h : (takeCondition collected condition).2 = []) :
    (∀ earlier ∈ (takeCondition collected condition).1, known earlier.subject) ∧
    (takeCondition collected condition).1.all (·.holdsOn input) =
      (collected.1.all (·.holdsOn input) && condition.holdsOn input) := by
  rw [takeCondition] at h ⊢
  cases hasked : askedValue? collected.1 condition.subject with
  | none =>
      refine ⟨?_, by simp⟩
      simpa [or_imp, forall_and] using ⟨hcollected, hcondition⟩
  | some value =>
      simp only [hasked] at h ⊢
      by_cases hvalue : value = condition.value
      · rw [if_pos hvalue]
        obtain ⟨earlier, hfind, hearlier⟩ := Option.map_eq_some_iff.mp hasked
        have hmem := List.mem_of_find?_eq_some hfind
        have hagree := List.find?_some hfind
        have hsame : earlier.holdsOn input = condition.holdsOn input := by
          rw [Bool.eq_iff_iff, Condition.holdsOn_iff hcoherent (hcollected earlier hmem),
            Condition.holdsOn_iff hcoherent hcondition,
            hcoherent.equal _ _ (hcollected earlier hmem) hcondition hagree, hearlier,
            hvalue]
        refine ⟨hcollected, ?_⟩
        -- the condition that is dropped holds whenever the earlier one does
        rw [Bool.eq_iff_iff, Bool.and_eq_true]
        refine ⟨fun hall => ⟨hall, ?_⟩, And.left⟩
        rw [← hsame]
        exact List.all_eq_true.mp hall earlier hmem
      · rw [if_neg hvalue] at h
        exact absurd h (noteConflict_ne_nil _ _ _ _)

private theorem foldl_takeCondition_holds (input : ι) (hcoherent : Coherent known)
    (conditions : List (Condition ι)) (collected : List (Condition ι) × Conflicts ι)
    (hcollected : ∀ earlier ∈ collected.1, known earlier.subject)
    (hconditions : ∀ condition ∈ conditions, known condition.subject)
    (h : (conditions.foldl takeCondition collected).2 = []) :
    (∀ earlier ∈ (conditions.foldl takeCondition collected).1, known earlier.subject) ∧
    (conditions.foldl takeCondition collected).1.all (·.holdsOn input) =
      (collected.1.all (·.holdsOn input) && conditions.all (·.holdsOn input)) := by
  induction conditions generalizing collected with
  | nil => exact ⟨hcollected, by simp⟩
  | cons condition conditions ih =>
      rw [List.forall_mem_cons] at hconditions
      have hfirst := foldl_takeCondition_conflicts conditions _ h
      obtain ⟨hknown, hholds⟩ := takeCondition_holds input hcoherent hcollected
        hconditions.1 hfirst
      obtain ⟨hwithin, hrest⟩ := ih _ hknown hconditions.2 h
      exact ⟨hwithin, by rw [List.foldl_cons, hrest, hholds, List.all_cons, Bool.and_assoc]⟩

theorem Rule.of_ok (input : ι) (hcoherent : Coherent known) {conditions : List (Condition ι)} {item : τ}
    {rule : Rule ι τ} (h : Rule.of conditions item = .ok rule)
    (hconditions : ∀ condition ∈ conditions, known condition.subject) :
    rule.item = item ∧ (∀ condition ∈ rule.conditions, known condition.subject) ∧
      rule.holdsOn input = conditions.all (·.holdsOn input) := by
  rw [Rule.of] at h
  have hholds := foldl_takeCondition_holds input hcoherent conditions ([], []) (by simp) hconditions
  split at h
  · next kept hkept =>
    rw [hkept] at hholds
    cases h
    obtain ⟨hwithin, hall⟩ := hholds rfl
    exact ⟨rfl, hwithin, by simpa [Rule.holdsOn] using hall⟩
  · cases h

end

/-! ## Builders -/

/-- Builders that hold the given rules: all that were accepted, in the order in which they were
added. -/
inductive Collected (config : DeciderConfig) : DeciderBuilder ι τ → List (Entry ι τ) → Prop where
  | new : Collected config (.new config) []
  | accept {builder next entries conditions item} :
      Collected config builder entries → builder.addRule conditions item = (.ok (), next) →
      Collected config next (entries ++ [(conditions, item)])
  | refuse {builder next entries conditions item error} :
      Collected config builder entries → builder.addRule conditions item = (.error error, next) →
      Collected config next entries

theorem DeciderBuilder.addRule_ok {builder next : DeciderBuilder ι τ}
    {conditions : List (Condition ι)} {item : τ}
    (h : builder.addRule conditions item = (.ok (), next)) :
    ∃ rule, Rule.of conditions item = .ok rule ∧
      next = { builder with rules := builder.rules ++ [rule] } := by
  rw [addRule] at h
  split at h
  · next rule hrule =>
    cases h
    exact ⟨rule, hrule, rfl⟩
  · cases h

theorem DeciderBuilder.addRule_error {builder next : DeciderBuilder ι τ}
    {conditions : List (Condition ι)} {item : τ} {error : DecisionError}
    (h : builder.addRule conditions item = (.error error, next)) : next = builder := by
  rw [addRule] at h
  split at h
  · cases h
  · cases h
    rfl

section

variable {config : DeciderConfig} {builder : DeciderBuilder ι τ} {entries : List (Entry ι τ)}

theorem Collected.config_eq (h : Collected config builder entries) : builder.config = config := by
  induction h with
  | new => rfl
  | accept _ hadd ih =>
      obtain ⟨rule, -, rfl⟩ := DeciderBuilder.addRule_ok hadd
      exact ih
  | refuse _ hadd ih =>
      obtain rfl := DeciderBuilder.addRule_error hadd
      exact ih

theorem Collected.made (h : Collected config builder entries) :
    List.Forall₂ (fun entry rule => Rule.of entry.1 entry.2 = .ok rule) entries builder.rules := by
  induction h with
  | new => exact .nil
  | accept _ hadd ih =>
      obtain ⟨rule, hrule, rfl⟩ := DeciderBuilder.addRule_ok hadd
      exact List.rel_append ih (.cons hrule .nil)
  | refuse _ hadd ih =>
      obtain rfl := DeciderBuilder.addRule_error hadd
      exact ih

theorem Collected.exists_entry (h : Collected config builder entries) {rule : Rule ι τ}
    (hrule : rule ∈ builder.rules) : ∃ entry ∈ entries, Rule.of entry.1 entry.2 = .ok rule := by
  have hmade := h.made
  generalize builder.rules = rules at hmade hrule
  clear h
  induction hmade with
  | nil => cases hrule
  | cons hfirst _ ih =>
      rcases List.mem_cons.mp hrule with rfl | hrest
      · exact ⟨_, List.mem_cons_self, hfirst⟩
      · obtain ⟨entry, hentry, hof⟩ := ih hrest
        exact ⟨entry, List.mem_cons_of_mem _ hentry, hof⟩

theorem Collected.rules {known : Variable ι → Prop} (hcoherent : Coherent known)
    {config : DeciderConfig} {builder : DeciderBuilder ι τ} {entries : List (Entry ι τ)}
    (h : Collected config builder entries)
    (hentries : ∀ entry ∈ entries, ∀ condition ∈ entry.1, known condition.subject) (input : ι) :
    Within known builder.rules ∧ chosen input builder.rules = selected input entries := by
  constructor
  · intro rule hrule
    obtain ⟨entry, hentry, hof⟩ := h.exists_entry hrule
    exact (Rule.of_ok input hcoherent hof (hentries entry hentry)).2.1
  · have hmade := h.made
    generalize builder.rules = rules at hmade
    clear h
    induction hmade with
    | nil => rfl
    | cons hfirst _ ih =>
        obtain ⟨hown, hrest⟩ := List.forall_mem_cons.mp hentries
        obtain ⟨hitem, -, hholds⟩ := Rule.of_ok input hcoherent hfirst hown
        rw [chosen_cons, hholds, hitem, ih hrest, selected, selected, List.filter_cons]
        split <;> rfl

end

/-! ## Deciders -/

namespace Decider

def after (decider : Decider ι τ π ω) (inputs : List ι) : Decider ι τ π ω :=
  inputs.foldl (fun decider input => (decider.decide input).decider) decider

def Prepares (tree : Tree ι τ) (factory : Factory ι τ π ω) (decider : Decider ι τ π ω) : Prop :=
  decider.tree = tree ∧ decider.factory = factory ∧
    ∀ prepared ∈ decider.prepared, prepared.result = factory.prepare prepared.items ∧
      ⟨prepared.node, prepared.items⟩ ∈ tree.ends []

theorem Prepares.prepare {tree : Tree ι τ} {factory : Factory ι τ π ω}
    {decider : Decider ι τ π ω} (h : Prepares tree factory decider) {walk : WalkEnd τ}
    (hwalk : walk ∈ tree.ends []) :
    Prepares tree factory (decider.prepare walk).2 ∧
    ∃ prepared ∈ (decider.prepare walk).2.prepared,
      prepared.node = walk.node ∧ prepared.result = (decider.prepare walk).1 := by
  obtain ⟨htree, hfactory, hprepared⟩ := h
  rw [Decider.prepare]
  cases hfind : decider.prepared.find? (·.node = walk.node) with
  | some prepared =>
      have hnode := List.find?_some hfind
      exact ⟨⟨htree, hfactory, hprepared⟩, prepared, List.mem_of_find?_eq_some hfind,
        by simpa using hnode, rfl⟩
  | none =>
      refine ⟨⟨htree, hfactory, fun prepared hmem => ?_⟩, _, List.mem_append_right _
        (List.mem_singleton_self _), rfl, rfl⟩
      rcases List.mem_append.mp hmem with hold | hnew
      · exact hprepared prepared hold
      · rw [List.mem_singleton.mp hnew, hfactory]
        exact ⟨rfl, hwalk⟩

theorem Prepares.decide {tree : Tree ι τ} {factory : Factory ι τ π ω}
    {decider : Decider ι τ π ω} (h : Prepares tree factory decider) (input : ι) :
    Prepares tree factory (decider.decide input).decider := by
  rw [Decider.decide]
  split
  · exact h
  · next walk context hwalk =>
    exact (h.prepare (h.1 ▸ Tree.walk_mem_ends [] decider.tree hwalk)).1

theorem Prepares.after {tree : Tree ι τ} {factory : Factory ι τ π ω}
    {decider : Decider ι τ π ω} (h : Prepares tree factory decider) (inputs : List ι) :
    Prepares tree factory (decider.after inputs) := by
  induction inputs generalizing decider with
  | nil => exact h
  | cons input inputs ih => exact ih (h.decide input)

theorem Prepares.new (tree : Tree ι τ) (factory : Factory ι τ π ω) :
    Prepares tree factory (.new tree factory) :=
  ⟨rfl, rfl, by simp [Decider.new]⟩

end Decider

theorem Tree.Numbered.items_eq {tree : Tree ι τ} {first last : Nat}
    (h : tree.Numbered first last) {walk other : WalkEnd τ} (hwalk : walk ∈ tree.ends [])
    (hother : other ∈ tree.ends []) (hnode : other.node = walk.node) : other = walk :=
  List.inj_on_of_nodup_map (h.2 []).1 hother hwalk hnode

theorem DeciderBuilder.buildTree_ok {builder : DeciderBuilder ι τ} {tree : Tree ι τ}
    (h : builder.buildTree.outcome = .ok tree) :
    ∃ last, compileRules builder.config.maxNodes builder.rules ⟨0, []⟩ = .ok tree last := by
  rw [buildTree] at h
  split at h
  · next own last hcompile =>
    cases h
    exact ⟨last, hcompile⟩
  · cases h

theorem DeciderBuilder.tree_of_build {builder : DeciderBuilder ι τ} {factory : Factory ι τ π ω}
    {decider : Decider ι τ π ω} (h : (builder.build factory).outcome = .ok decider) :
    ∃ tree, builder.buildTree.outcome = .ok tree ∧ decider = .new tree factory := by
  rw [build] at h
  cases hbuild : builder.buildTree.outcome with
  | error error =>
      rw [hbuild] at h
      cases h
  | ok tree =>
      rw [hbuild] at h
      cases h
      exact ⟨tree, rfl, rfl⟩

theorem DeciderBuilder.build_ok {builder : DeciderBuilder ι τ} {factory : Factory ι τ π ω}
    {decider : Decider ι τ π ω} (h : (builder.build factory).outcome = .ok decider) :
    ∃ tree last, decider = .new tree factory ∧
      compileRules builder.config.maxNodes builder.rules ⟨0, []⟩ = .ok tree last := by
  obtain ⟨tree, hbuild, rfl⟩ := tree_of_build h
  obtain ⟨last, hcompile⟩ := buildTree_ok hbuild
  exact ⟨tree, last, rfl, hcompile⟩

/-- A decider prepares its output from exactly the items of the rules all of whose conditions hold
on the input, each once, whatever it decided before. -/
theorem Collected.decides {config : DeciderConfig} {builder : DeciderBuilder ι τ}
    {entries : List (Entry ι τ)} (hcollected : Collected config builder entries)
    (hconsistent : Consistent entries) {factory : Factory ι τ π ω} {decider : Decider ι τ π ω}
    (hbuild : (builder.build factory).outcome = .ok decider) (earlier : List ι) (input : ι)
    {walk : WalkEnd τ} {context : Context ι}
    (hwalk : decider.tree.walk (.new input) = .ok walk context) :
    (∃ prepared ∈ ((decider.after earlier).decide input).decider.prepared,
      prepared.node = walk.node ∧
      ((decider.after earlier).decide input).outcome =
        (factory.finish prepared.result context).1) ∧
    ∀ prepared ∈ ((decider.after earlier).decide input).decider.prepared,
      prepared.node = walk.node →
      prepared.result = factory.prepare prepared.items ∧
      prepared.items.Perm (selected input entries) := by
  have hcoherent := hconsistent.coherent
  obtain ⟨hwithin, hchosen⟩ := hcollected.rules hcoherent
    (fun entry hentry condition hcondition => mentioned_of_condition hentry hcondition) input
  obtain ⟨tree, last, rfl, hcompile⟩ := DeciderBuilder.build_ok hbuild
  obtain ⟨hnumbered, hmeans⟩ := compile_sound hcoherent _ _ hwithin (Nat.le_refl _) hcompile
  have hmem : walk ∈ tree.ends [] := Tree.walk_mem_ends [] tree hwalk
  have hitems : walk.items.Perm (selected input entries) := by
    rw [← hchosen]
    exact hmeans input [] _ _ walk (by simp [Agrees]) (.new _ input) hwalk
  have hcurrent := (Decider.Prepares.new tree factory).after earlier
  constructor
  · obtain ⟨-, prepared, hprepared, hnode, hresult⟩ := hcurrent.prepare hmem
    have hwalked : ((Decider.new tree factory).after earlier).tree.walk (.new input) =
        .ok walk context := by
      rw [hcurrent.1]
      exact hwalk
    refine ⟨prepared, ?_, hnode, ?_⟩
    · rw [Decider.decide, hwalked]
      exact hprepared
    · rw [Decider.decide, hwalked, hresult]
      have hfactory := (hcurrent.prepare hmem).1.2.1
      exact congrArg (fun own : Factory ι τ π ω => (own.finish _ context).1) hfactory
  · intro prepared hprepared hnode
    obtain ⟨hresult, hend⟩ := (hcurrent.decide input).2.2 prepared hprepared
    have hsame : (⟨prepared.node, prepared.items⟩ : WalkEnd τ) = walk :=
      hnumbered.items_eq hmem hend hnode
    rw [← hsame] at hitems
    exact ⟨hresult, hitems⟩

/-! ## Rules about a flag -/

def flag : Variable Bool := .primary "flag" (fun input => .ok (.bool input)) true

def flagOff : Variable Bool := .predicate flag "off" (fun value => value = .bool false) true

def flagRules : List (Entry Bool String) :=
  [([⟨flag, .bool true⟩], "x"), ([⟨flagOff, .bool false⟩, ⟨flag, .bool true⟩], "y"),
    ([⟨flagOff, .bool true⟩], "z")]

theorem flagRules_consistent : Consistent flagRules := by
  have hmentioned : ∀ subject, Mentioned flagRules subject → subject = flag ∨ subject = flagOff := by
    rintro subject ⟨entry, hentry, condition, hcondition, hpath⟩
    induction hpath with
    | refl =>
        simp only [flagRules, List.mem_cons, List.not_mem_nil, or_false] at hentry
        rcases hentry with rfl | rfl | rfl <;> simp at hcondition
        · exact .inl (by rw [hcondition])
        · rcases hcondition with rfl | rfl
          · exact .inr rfl
          · exact .inl rfl
        · exact .inr (by rw [hcondition])
    | tail _ hdependency ih =>
        rcases ih with rfl | rfl
        · cases hdependency
        · exact .inl (List.mem_singleton.mp hdependency)
  intro a b ha hb hsame input
  rcases hmentioned a ha with rfl | rfl <;> rcases hmentioned b hb with rfl | rfl
  · rfl
  · cases hsame
  · cases hsame
  · rfl

def flagBuilder : DeciderBuilder Bool String :=
  flagRules.foldl (fun builder rule => (builder.addRule rule.1 rule.2).2) (.new .unlimited)

def flagTree : Tree Bool String :=
  .split 0 flag [] [(.bool true, .leaf 3 ["x", "y"])]
    (some (.split 1 flagOff [] [(.bool true, .leaf 2 ["z"])] none))

theorem decides_flagRules :
    ∃ decider : Decider Bool String (List String) (List String),
      Collected .unlimited flagBuilder flagRules ∧ Consistent flagRules ∧
      (flagBuilder.build (.ofItems id)).outcome = .ok decider ∧
      (∃ context, decider.tree.walk (.new true) = .ok ⟨3, ["x", "y"]⟩ context) ∧
      ∃ prepared ∈ ((decider.after [false, true]).decide true).decider.prepared,
        prepared.items.Perm ["x", "y"] := by
  have hcollected : Collected .unlimited flagBuilder flagRules :=
    ((Collected.new.accept rfl).accept rfl).accept rfl
  have hbuild : (flagBuilder.build (.ofItems id)).outcome =
      .ok (Decider.new flagTree (.ofItems id)) := rfl
  have hwalk : ∃ context, flagTree.walk (.new true) = .ok ⟨3, ["x", "y"]⟩ context := ⟨_, rfl⟩
  refine ⟨_, hcollected, flagRules_consistent, hbuild, hwalk, ?_⟩
  obtain ⟨context, hwalk⟩ := hwalk
  obtain ⟨⟨prepared, hprepared, hnode, -⟩, hall⟩ :=
    hcollected.decides flagRules_consistent hbuild [false, true] true hwalk
  exact ⟨prepared, hprepared, (hall prepared hprepared hnode).2⟩

end Runbook.Decision
