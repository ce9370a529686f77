import Runbook.Proofs.Decision.Structure

/-!
# Failures of deciders

When a tree is not built, and when a walk does not end: a compilation fails where it makes too many
nodes or where a pinned variable fails, a walk fails only where it asks for a variable.
-/

namespace Runbook.Decision

open Variable

variable {ι τ π ω : Type}

/-! ## Failing steps -/

theorem bind_error {α β : Type} {first : Compile ι α} {rest : α → Compile ι β}
    {progress last : Progress ι} {error : DecisionError}
    (h : (first >>= rest) progress = .error error last) :
    first progress = .error error last ∨
      ∃ value next, first progress = .ok value next ∧ rest value next = .error error last := by
  change EStateM.bind first rest progress = _ at h
  rw [EStateM.bind] at h
  cases hfirst : first progress with
  | ok value next =>
      rw [hfirst] at h
      exact .inr ⟨value, next, rfl, h⟩
  | error own next =>
      rw [hfirst] at h
      cases h
      exact .inl rfl

theorem optional_error {α β : Type} {absent : Prop} [Decidable absent] {first : Compile ι α}
    {rest : Option α → Compile ι β} {progress last : Progress ι} {error : DecisionError}
    (h : (if absent then pure none >>= rest else (some <$> first) >>= rest) progress =
      .error error last) :
    first progress = .error error last ∨
      ∃ value next, rest value next = .error error last := by
  split at h
  · exact .inr ⟨none, progress, h⟩
  · rcases bind_error h with hfirst | ⟨value, next, -, h⟩
    · rw [map_eq_pure_bind] at hfirst
      rcases bind_error hfirst with hinner | ⟨inner, next, -, hpure⟩
      · exact .inl hinner
      · cases hpure
    · exact .inr ⟨value, next, h⟩

theorem mapM_error {α κ : Type} {compute : κ → Compile ι α} {values : List κ}
    {progress last : Progress ι} {error : DecisionError}
    (h : values.mapM compute progress = .error error last) :
    ∃ value ∈ values, ∃ start final, compute value start = .error error final := by
  induction values generalizing progress with
  | nil => cases h
  | cons value values ih =>
      rw [List.mapM_cons] at h
      rcases bind_error h with hfirst | ⟨own, next, -, h⟩
      · exact ⟨value, List.mem_cons_self, _, _, hfirst⟩
      rcases bind_error h with hrest | ⟨others, final, -, h⟩
      · obtain ⟨other, hother, hfails⟩ := ih hrest
        exact ⟨other, List.mem_cons_of_mem _ hother, hfails⟩
      · cases h

theorem newNode_error {limit : Option Nat} {progress last : Progress ι} {error : DecisionError}
    (h : newNode limit progress = .error error last) :
    ∃ most, limit = some most ∧ error = .treeTooLarge most := by
  unfold newNode at h
  split at h
  · next most =>
    split at h
    · cases h
      exact ⟨most, rfl, rfl⟩
    · cases h
  · cases h

theorem newNode_room {limit : Option Nat} {progress : Progress ι} :
    (∃ id last, newNode limit progress = .ok id last) ↔
      ∀ most, limit = some most → progress.nodes < most := by
  cases limit with
  | none => simp [newNode]
  | some most =>
      by_cases hfull : most ≤ progress.nodes
      · simp [newNode, hfull]
      · simp [newNode, hfull, Nat.lt_of_not_le hfull]

theorem pinnedValue_error {assumptions : Assumptions ι} {subject : Variable ι}
    {progress last : Progress ι} {error : DecisionError}
    (h : pinnedValue assumptions subject progress = .error error last) :
    isPinned assumptions subject ∧ ∃ source, error = .assumptionViolated subject.display source := by
  rw [pinnedValue] at h
  split at h
  · next hpinned =>
    cases hresult : evaluateAssumed subject assumptions with
    | mk result called =>
        rw [hresult] at h
        cases result with
        | ok value => cases h
        | error source =>
            cases h
            exact ⟨hpinned, source, rfl⟩
  · cases h

/-! ## Failing compilations -/

section

variable {rules : List (Rule ι τ)} {assumptions : Assumptions ι}

theorem compile_room (limit : Option Nat) (fuel : Nat) {progress last : Progress ι}
    {tree : Tree ι τ} (h : compile limit fuel rules assumptions progress = .ok tree last) :
    ∀ most, limit = some most → progress.nodes < most := by
  induction fuel generalizing rules assumptions progress last tree with
  | zero =>
      rw [compile] at h
      obtain ⟨id, next, hid, -⟩ := bind_ok h
      exact newNode_room.mp ⟨id, _, hid⟩
  | succ fuel ih =>
      rw [compile] at h
      cases hpick : pickSplit rules with
      | none =>
          simp only [hpick] at h
          obtain ⟨id, next, hid, -⟩ := bind_ok h
          exact newNode_room.mp ⟨id, _, hid⟩
      | some subject =>
          simp only [hpick] at h
          obtain ⟨pinned, next, hpinned, h⟩ := bind_ok h
          rw [← (pinnedValue_ok hpinned).1]
          cases pinned with
          | some value => exact ih h
          | none =>
              obtain ⟨id, made, hid, -⟩ := bind_ok h
              exact newNode_room.mp ⟨id, _, hid⟩

end

theorem DeciderBuilder.buildTree_failed {builder : DeciderBuilder ι τ} {error : DecisionError}
    (h : builder.buildTree.outcome = .error error) :
    ∃ last, compileRules builder.config.maxNodes builder.rules ⟨0, []⟩ = .error error last := by
  rw [buildTree] at h
  split at h
  · cases h
  · next own last hcompile =>
    cases h
    exact ⟨last, hcompile⟩

theorem DeciderBuilder.build_failed {builder : DeciderBuilder ι τ} {factory : Factory ι τ π ω}
    {error : DecisionError} (h : (builder.build factory).outcome = .error error) :
    ∃ last, compileRules builder.config.maxNodes builder.rules ⟨0, []⟩ = .error error last := by
  rw [build] at h
  cases hbuild : builder.buildTree.outcome with
  | ok tree =>
      rw [hbuild] at h
      cases h
  | error own =>
      rw [hbuild] at h
      cases h
      exact buildTree_failed hbuild

/-! ## Walks that end -/

def Answers (subject : Variable ι) : Prop :=
  ∀ context, ∃ value next, Live.get subject context = .ok value next

namespace Tree

mutual

theorem walkFrom_ok (parent? : Option Nat) (way : List (Edge ι)) (tree : Tree ι τ)
    (h : ∀ placed ∈ tree.placed parent? way, ∀ subject, placed.node.subject? = some subject →
      Answers subject) (collected : List τ) (context : Context ι) :
    ∃ walk next, tree.walkFrom collected context = .ok walk next := by
  cases tree with
  | leaf id items => exact ⟨_, _, rfl⟩
  | split id subject items branches otherwise =>
      rw [placed] at h
      rw [List.forall_mem_cons, List.forall_mem_append] at h
      obtain ⟨hsubject, hotherwise, hbranches⟩ := h
      obtain ⟨value, next, hget⟩ := hsubject subject (splitNode_subject? ..) context
      rw [walkFrom]
      change ∃ walk last, EStateM.bind _ _ context = .ok walk last
      rw [EStateM.bind, hget]
      cases hbranch : walkBranches (collected ++ items) value branches with
      | some walked =>
          simp only [hbranch]
          exact walkBranches_ok id subject way branches hbranches hbranch next
      | none =>
          cases hother : walkOtherwise (collected ++ items) otherwise with
          | some walked =>
              simp only [hbranch]
              exact walkOtherwise_ok id subject way otherwise hotherwise hother next
          | none =>
              simp only [hbranch]
              exact ⟨_, _, rfl⟩

theorem walkBranches_ok (parent : Nat) (subject : Variable ι) (way : List (Edge ι))
    (branches : List (Value × Tree ι τ))
    (h : ∀ placed ∈ branchesPlaced parent subject way branches, ∀ own,
      placed.node.subject? = some own → Answers own) {collected : List τ} {value : Value}
    {walked : Live ι (WalkEnd τ)} (hsome : walkBranches collected value branches = some walked)
    (context : Context ι) : ∃ walk next, walked context = .ok walk next := by
  cases branches with
  | nil => cases hsome
  | cons branch branches =>
      obtain ⟨own, tree⟩ := branch
      rw [branchesPlaced, List.forall_mem_append] at h
      rw [walkBranches] at hsome
      split at hsome
      · cases hsome
        exact walkFrom_ok (some parent) (way ++ [⟨subject, some own⟩]) tree h.1 collected context
      · exact walkBranches_ok parent subject way branches h.2 hsome context

private theorem walkOtherwise_ok (parent : Nat) (subject : Variable ι) (way : List (Edge ι))
    (otherwise : Option (Tree ι τ))
    (h : ∀ placed ∈ otherwisePlaced parent subject way otherwise, ∀ own,
      placed.node.subject? = some own → Answers own) {collected : List τ}
    {walked : Live ι (WalkEnd τ)} (hsome : walkOtherwise collected otherwise = some walked)
    (context : Context ι) : ∃ walk next, walked context = .ok walk next := by
  cases otherwise with
  | none => cases hsome
  | some tree =>
      rw [otherwisePlaced] at h
      cases hsome
      exact walkFrom_ok (some parent) (way ++ [⟨subject, none⟩]) tree h collected context

end

end Tree

end Runbook.Decision
