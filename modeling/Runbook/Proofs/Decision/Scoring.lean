import Runbook.Proofs.Decision.Structure
import Mathlib.Algebra.GroupWithZero.Nat

/-!
# The first variable with the greatest score

A rule mentions a variable at most once, so that the mentions of a variable are the rules that
mention it.  With the mentions of variables that depend on it, they are its score.
-/

namespace Runbook.Decision

open Variable

variable {ι τ : Type}

/-! ## Rules as they come about -/

/-- The rules that there are: those that conditions make, and what is left of them when conditions
are taken out. -/
inductive Rule.Made : Rule ι τ → Prop where
  | of {conditions : List (Condition ι)} {item : τ} {rule : Rule ι τ} :
      Rule.of conditions item = .ok rule → Made rule
  | without {rule : Rule ι τ} (subject : Variable ι) : Made rule → Made (rule.without subject)

theorem Rule.Made.separate {rule : Rule ι τ} (h : rule.Made) :
    Separate (rule.conditions.map (·.subject)) := by
  induction h with
  | of hof => exact (Rule.of_separate hof).2
  | without subject _ ih => exact ih.sublist ((sublist_without _ subject).map _)

/-! ## Scores -/

/-- How many rules mention a variable, and how often the variables that they mention depend
on it. -/
def score (rules : List (Rule ι τ)) (subject : Variable ι) : Nat :=
  rules.countP (fun rule => rule.conditions.any (·.subject.same subject)) +
    (rules.map fun rule => (rule.conditions.map fun condition =>
      condition.subject.dependencies.countP (·.same subject)).sum).sum

private theorem countP_same_of_separate {subjects : List (Variable ι)} (h : Separate subjects)
    (subject : Variable ι) :
    subjects.countP (·.same subject) = if subjects.any (·.same subject) then 1 else 0 := by
  induction subjects with
  | nil => rfl
  | cons own subjects ih =>
      by_cases hsame : own.same subject
      · have hzero : subjects.countP (·.same subject) = 0 := by
          rw [List.countP_eq_zero]
          simpa using h.others hsame
        simp [hzero, hsame]
      · simp [ih h.of_cons, hsame]

theorem mentions_cons (rule : Rule ι τ) (rules : List (Rule ι τ)) :
    mentions (rule :: rules) = rule.conditions.map (·.subject) ++ mentions rules := rfl

private theorem countP_mentions {rules : List (Rule ι τ)}
    (h : ∀ rule ∈ rules, Separate (rule.conditions.map (·.subject))) (subject : Variable ι) :
    (mentions rules).countP (·.same subject) =
      rules.countP fun rule => rule.conditions.any (·.subject.same subject) := by
  induction rules with
  | nil => rfl
  | cons rule rules ih =>
      obtain ⟨hrule, hrules⟩ := List.forall_mem_cons.mp h
      rw [mentions_cons, List.countP_append, countP_same_of_separate hrule, ih hrules,
        List.countP_cons, List.any_map, Nat.add_comm]
      rfl

private theorem countP_dependencies (rules : List (Rule ι τ)) (subject : Variable ι) :
    ((mentions rules).flatMap dependencies).countP (·.same subject) =
      (rules.map fun rule => (rule.conditions.map fun condition =>
        condition.subject.dependencies.countP (·.same subject)).sum).sum := by
  induction rules with
  | nil => rfl
  | cons rule rules ih =>
      rw [mentions_cons, List.flatMap_append, List.countP_append, ih, List.countP_flatMap,
        List.map_map]
      rfl

private theorem score_eq {rules : List (Rule ι τ)}
    (h : ∀ rule ∈ rules, Separate (rule.conditions.map (·.subject))) (subject : Variable ι) :
    score rules subject = (mentions rules).countP (·.same subject) +
      ((mentions rules).flatMap dependencies).countP (·.same subject) := by
  rw [score, countP_mentions h, countP_dependencies]

/-! ## The choice -/

/-- No variable is asked for exactly if no rule has a condition.  Otherwise it is, among the
different variables that the rules mention and in the order of their first mentions, the first one
with the greatest score. -/
theorem pickSplit_first_greatest {rules : List (Rule ι τ)} (hmade : ∀ rule ∈ rules, rule.Made) :
    (pickSplit rules = none ↔ ∀ rule ∈ rules, rule.conditions = []) ∧
    ∀ subject, pickSplit rules = some subject ↔
      FirstGreatest (score rules) (firstMentions rules) subject := by
  have hscore := score_eq fun rule hrule => (hmade rule hrule).separate
  have htally : tally rules = (firstMentions rules).map fun subject =>
      (subject, score rules subject) := by
    simp only [tally_eq, hscore]
  refine ⟨⟨conditions_of_pickSplit_none, fun hnone => ?_⟩, fun subject => ?_⟩
  · have hmentions : mentions rules = [] := by
      simpa [mentions] using hnone
    simp [pickSplit, tally_eq, firstMentions, hmentions, best]
  · rw [pickSplit, htally]
    simp only [Option.map_eq_some_iff, best_eq_some_iff, firstGreatest_map]
    constructor
    · rintro ⟨_, ⟨origin, rfl, hgreatest⟩, rfl⟩
      exact hgreatest
    · intro hgreatest
      exact ⟨_, ⟨subject, rfl, hgreatest⟩, rfl⟩

def speed : Variable Nat := .primary "speed" (fun input => .ok (.ofNat input)) true

def load : Variable Nat := .primary "load" (fun input => .ok (.ofNat (input + 1))) true

def loadAgain : Variable Nat := .primary "load" (fun _ => .ok .null) false

def strain : Variable Nat := .derived "strain" [load, load, speed] (fun _ => .ok .null) true

def strainRules : List (Rule Nat String) :=
  [⟨[⟨strain, .null⟩], "strained"⟩, ⟨[⟨load, .int 1⟩, ⟨speed, .int 0⟩], "idle"⟩,
    ⟨[⟨speed, .int 1⟩, ⟨loadAgain, .null⟩], "slow"⟩, ⟨[⟨speed, .int 9⟩], "fast"⟩]

theorem pickSplit_first_greatest_tied :
    (∀ rule ∈ strainRules, rule.Made) ∧ score strainRules speed = 4 ∧
      score strainRules load = 4 ∧ pickSplit strainRules = some load := by
  have hmade : ∀ rule ∈ strainRules, rule.Made := by
    simp only [strainRules, List.forall_mem_cons, List.not_mem_nil, false_imp_iff, implies_true,
      and_true]
    exact ⟨.of (show Rule.of [⟨strain, .null⟩] "strained" = .ok _ from rfl),
      .of (show Rule.of [⟨load, .int 1⟩, ⟨speed, .int 0⟩] "idle" = .ok _ from rfl),
      .of (show Rule.of [⟨speed, .int 1⟩, ⟨loadAgain, .null⟩] "slow" = .ok _ from rfl),
      .of (show Rule.of [⟨speed, .int 9⟩] "fast" = .ok _ from rfl)⟩
  have hmentions : firstMentions strainRules = [strain] ++ load :: [speed] := by rfl
  refine ⟨hmade, rfl, rfl, ((pickSplit_first_greatest hmade).2 load).mpr
    ⟨[strain], [speed], hmentions, ?_, ?_⟩⟩
  · simp only [List.forall_mem_singleton]
    decide
  · simp only [List.forall_mem_singleton]
    decide

end Runbook.Decision
