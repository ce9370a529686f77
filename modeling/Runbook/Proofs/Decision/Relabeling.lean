import Runbook.Proofs.Decision.Compilation

/-!
# Items of rules

Which tree is compiled and which way a walk takes depends on the conditions of rules alone: rules
with other items give the same tree with these items.
-/

namespace Runbook.Decision

variable {ι τ υ : Type}

/-! ## Rules with other items -/

namespace Rule

def map (f : τ → υ) (rule : Rule ι τ) : Rule ι υ := ⟨rule.conditions, f rule.item⟩

@[simp] theorem map_item (f : τ → υ) (rule : Rule ι τ) : (rule.map f).item = f rule.item := rfl

@[simp] theorem map_asks? (f : τ → υ) (rule : Rule ι τ) (subject : Variable ι) :
    (rule.map f).asks? subject = rule.asks? subject := rfl

@[simp] theorem map_without (f : τ → υ) (rule : Rule ι τ) (subject : Variable ι) :
    (rule.map f).without subject = (rule.without subject).map f := rfl

end Rule

section

variable (f : τ → υ) (rules : List (Rule ι τ)) (subject : Variable ι)

theorem within_map {known : Variable ι → Prop} {rules : List (Rule ι τ)} (h : Within known rules) :
    Within known (rules.map (Rule.map f)) := by
  intro rule hrule
  obtain ⟨own, hown, rfl⟩ := List.mem_map.mp hrule
  exact h own hown

private theorem mentions_map : mentions (rules.map (Rule.map f)) = mentions rules := by
  rw [mentions, mentions, List.flatMap_map]
  rfl

private theorem pickSplit_map : pickSplit (rules.map (Rule.map f)) = pickSplit rules := by
  rw [pickSplit, tally, mentions_map, pickSplit, tally]

theorem items_map : (rules.map (Rule.map f)).map (·.item) = (rules.map (·.item)).map f := by
  simp [Function.comp_def]

private theorem settle_map (value : Value) : settle (rules.map (Rule.map f)) subject value =
    (settle rules subject value).map (Rule.map f) := by
  rw [settle, settle, List.filterMap_map, List.map_filterMap]
  refine List.filterMap_congr fun rule _ => ?_
  simp only [Function.comp_apply, Rule.map_asks?, Rule.map_without]
  split
  · rfl
  · split <;> rfl

private theorem askedValues_map :
    askedValues (rules.map (Rule.map f)) subject = askedValues rules subject := by
  rw [askedValues, askedValues, List.filterMap_map]
  rfl

private theorem askingFor_map (value : Value) : askingFor (rules.map (Rule.map f)) subject value =
    (askingFor rules subject value).map (Rule.map f) := by
  rw [askingFor, askingFor, List.filter_map, List.map_map, List.map_map]
  rfl

theorem silentOn_map : silentOn (rules.map (Rule.map f)) subject =
    (silentOn rules subject).map (Rule.map f) := by
  rw [silentOn, silentOn, List.filter_map]
  rfl

theorem conditional_map :
    ((silentOn (rules.map (Rule.map f)) subject).filter (!isUnconditional ·)) =
      ((silentOn rules subject).filter (!isUnconditional ·)).map (Rule.map f) := by
  rw [silentOn_map, List.filter_map]
  rfl

private theorem unconditional_map :
    ((silentOn (rules.map (Rule.map f)) subject).filter isUnconditional).map (·.item) =
      (((silentOn rules subject).filter isUnconditional).map (·.item)).map f := by
  rw [silentOn_map, List.filter_map, ← items_map]
  rfl

private theorem conditionCount_map :
    conditionCount (rules.map (Rule.map f)) = conditionCount rules := by
  rw [conditionCount, conditionCount, List.flatMap_map]
  rfl

/-! ## Trees with other items -/

namespace Tree

mutual

def map (f : τ → υ) : Tree ι τ → Tree ι υ
  | .leaf id items => .leaf id (items.map f)
  | .split id subject items branches otherwise =>
    .split id subject (items.map f) (mapBranches f branches) (mapOtherwise f otherwise)

def mapBranches (f : τ → υ) : List (Value × Tree ι τ) → List (Value × Tree ι υ)
  | [] => []
  | (value, tree) :: branches => (value, tree.map f) :: mapBranches f branches

def mapOtherwise (f : τ → υ) : Option (Tree ι τ) → Option (Tree ι υ)
  | none => none
  | some tree => some (tree.map f)

end

private theorem mapBranches_eq (branches : List (Value × Tree ι τ)) :
    mapBranches f branches = branches.map fun branch => (branch.1, branch.2.map f) := by
  induction branches with
  | nil => rfl
  | cons branch branches ih =>
      rw [mapBranches, ih]
      rfl

private theorem mapOtherwise_eq (otherwise : Option (Tree ι τ)) :
    mapOtherwise f otherwise = otherwise.map (map f) := by
  cases otherwise <;> rfl

end Tree

theorem map_run {α β ε σ : Type} (convert : α → β) (compute : EStateM ε σ α) (state : σ) :
    (convert <$> compute) state =
      match compute state with
      | .ok value next => .ok (convert value) next
      | .error error next => .error error next := by
  change EStateM.map convert compute state = _
  rw [EStateM.map]
  cases compute state <;> rfl

private theorem mapM_map_values {α β κ : Type} (convert : α → β) (compute : κ → Compile ι α)
    (values : List κ) :
    values.mapM (fun value => convert <$> compute value) = List.map convert <$> values.mapM compute := by
  induction values with
  | nil => simp
  | cons value values ih => simp [List.mapM_cons, ih, map_bind]

private theorem compile_map (limit : Option Nat) (fuel : Nat) (rules : List (Rule ι τ))
    (assumptions : Assumptions ι) :
    compile limit fuel (rules.map (Rule.map f)) assumptions =
      Tree.map f <$> compile limit fuel rules assumptions := by
  induction fuel generalizing rules assumptions with
  | zero =>
      rw [compile, compile, items_map, map_bind]
      simp [Tree.map]
  | succ fuel ih =>
      rw [compile, compile, pickSplit_map]
      cases pickSplit rules with
      | none =>
          simp only [items_map, map_bind]
          simp [Tree.map]
      | some subject =>
          simp only [map_bind]
          refine bind_congr fun pinned => ?_
          cases pinned with
          | some value => simp only [settle_map, ih]
          | none =>
              have hbranch : ∀ value, (do
                  let tree ← compile limit fuel (askingFor (rules.map (Rule.map f)) subject value ++
                    (silentOn (rules.map (Rule.map f)) subject).filter (!isUnconditional ·))
                    ((subject, value) :: assumptions)
                  return (value, tree)) =
                  (fun branch => (branch.1, branch.2.map f)) <$> (do
                    let tree ← compile limit fuel (askingFor rules subject value ++
                      (silentOn rules subject).filter (!isUnconditional ·))
                      ((subject, value) :: assumptions)
                    return (value, tree)) := by
                intro value
                rw [askingFor_map, conditional_map, ← List.map_append, ih]
                simp
              simp only [askedValues_map, hbranch, mapM_map_values]
              rw [conditional_map, ih]
              rw [map_bind]
              refine bind_congr fun id => ?_
              rw [List.isEmpty_map, unconditional_map]
              split <;>
                simp [Tree.map, Tree.mapBranches_eq, Tree.mapOtherwise_eq, Function.comp_def]

/-! ## Walks -/

def WalkEnd.map (f : τ → υ) (walk : WalkEnd τ) : WalkEnd υ := ⟨walk.node, walk.items.map f⟩

namespace Tree

mutual

theorem walkFrom_map (collected : List τ) (tree : Tree ι τ) :
    (tree.map f).walkFrom (collected.map f) = WalkEnd.map f <$> tree.walkFrom collected := by
  cases tree with
  | leaf id items => simp [map, walkFrom, WalkEnd.map]
  | split id subject items branches otherwise =>
      rw [map, walkFrom, walkFrom, map_bind]
      refine bind_congr fun value => ?_
      simp only [← List.map_append]
      rw [walkBranches_map]
      cases walkBranches (collected ++ items) value branches with
      | some walk => rfl
      | none =>
          simp only [Option.map_none]
          rw [walkOtherwise_map]
          cases walkOtherwise (collected ++ items) otherwise with
          | some walk => rfl
          | none => rfl

theorem walkBranches_map (collected : List τ) (value : Value)
    (branches : List (Value × Tree ι τ)) :
    walkBranches (collected.map f) value (mapBranches f branches) =
      (walkBranches collected value branches).map (WalkEnd.map f <$> ·) := by
  cases branches with
  | nil => rfl
  | cons branch branches =>
      obtain ⟨own, tree⟩ := branch
      rw [mapBranches, walkBranches, walkBranches]
      split
      · exact congrArg some (walkFrom_map collected tree)
      · exact walkBranches_map collected value branches

private theorem walkOtherwise_map (collected : List τ) (otherwise : Option (Tree ι τ)) :
    walkOtherwise (collected.map f) (mapOtherwise f otherwise) =
      (walkOtherwise collected otherwise).map (WalkEnd.map f <$> ·) := by
  cases otherwise with
  | none => rfl
  | some tree => exact congrArg some (walkFrom_map collected tree)

end

theorem walk_map (tree : Tree ι τ) (context : Context ι) :
    (tree.map f).walk context = (WalkEnd.map f <$> tree.walk) context := by
  have hsame := walkFrom_map f [] tree
  rw [List.map_nil] at hsame
  rw [walk, hsame]
  rfl

end Tree

/-! ## Builders -/

namespace DeciderBuilder

def map (f : τ → υ) (builder : DeciderBuilder ι τ) : DeciderBuilder ι υ :=
  ⟨builder.rules.map (Rule.map f), builder.config⟩

theorem buildTree_map (builder : DeciderBuilder ι τ) :
    (builder.map f).buildTree.outcome = builder.buildTree.outcome.map (Tree.map f) := by
  rw [buildTree, buildTree, compileRules, compileRules, map, conditionCount_map, compile_map, map_run]
  cases compile builder.config.maxNodes (conditionCount builder.rules) builder.rules [] ⟨0, []⟩ <;> rfl

theorem walk_of_map {builder : DeciderBuilder ι τ} {f : τ → υ} {tree : Tree ι υ}
    (hbuild : (builder.map f).buildTree.outcome = .ok tree) {context next : Context ι}
    {walk : WalkEnd υ} (hwalk : tree.walk context = .ok walk next) :
    ∃ own walked, builder.buildTree.outcome = .ok own ∧ own.walk context = .ok walked next ∧
      walk = walked.map f := by
  rw [buildTree_map] at hbuild
  cases hown : builder.buildTree.outcome with
  | error error =>
      rw [hown] at hbuild
      cases hbuild
  | ok own =>
      rw [hown] at hbuild
      cases hbuild
      rw [Tree.walk_map, map_run] at hwalk
      cases hwalked : own.walk context with
      | error error last =>
          rw [hwalked] at hwalk
          cases hwalk
      | ok walked last =>
          rw [hwalked] at hwalk
          cases hwalk
          exact ⟨own, walked, rfl, hwalked, rfl⟩

/-- A walk collects no items but those of the rules: the tree is the one of rules whose items carry
what holds of them. -/
theorem walk_items {builder : DeciderBuilder ι τ} {P : τ → Prop}
    (h : ∀ rule ∈ builder.rules, P rule.item) {tree : Tree ι τ}
    (hbuild : builder.buildTree.outcome = .ok tree) {context next : Context ι} {walk : WalkEnd τ}
    (hwalk : tree.walk context = .ok walk next) : ∀ item ∈ walk.items, P item := by
  let carrying : DeciderBuilder ι { item // P item } :=
    ⟨builder.rules.attach.map fun rule => ⟨rule.1.conditions, rule.1.item, h rule.1 rule.2⟩,
      builder.config⟩
  have hmap : carrying.map Subtype.val = builder := by
    rw [map, List.map_map]
    exact congrArg (DeciderBuilder.mk · builder.config) (List.attach_map_subtype_val builder.rules)
  rw [← hmap] at hbuild
  obtain ⟨-, walked, -, -, rfl⟩ := walk_of_map hbuild hwalk
  intro item hitem
  obtain ⟨carried, -, rfl⟩ := List.mem_map.mp hitem
  exact carried.2

end DeciderBuilder

end

end Runbook.Decision
