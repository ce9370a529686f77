import Runbook.Proofs.Decision.Stability
import Mathlib.Data.List.Induction

/-!
# Normal conditions

The conditions of a rule are read once.  If they ask for one value of each variable, the rule keeps
the first condition on each; otherwise all that they ask of the variables that they contradict
themselves about is reported.
-/

namespace Runbook.Decision

open Variable

variable {ι τ : Type} {conditions : List (Condition ι)} {condition : Condition ι}
  {subject other : Variable ι}

/-! ## What conditions ask for -/

def demands (conditions : List (Condition ι)) (subject : Variable ι) : List Value :=
  firsts ((conditions.filter (·.subject.same subject)).map (·.value))

@[simp] theorem demands_nil : demands ([] : List (Condition ι)) subject = [] := rfl

theorem demands_concat : demands (conditions ++ [condition]) subject =
    if condition.subject.same subject then appendNew (demands conditions subject) [condition.value]
    else demands conditions subject := by
  by_cases h : condition.subject.same subject <;> simp [demands, firsts, h, appendNew_append]

theorem demands_of_same (h : subject.same other) :
    demands conditions subject = demands conditions other := by
  simp [demands, same_right h]

theorem mem_demands {value : Value} :
    value ∈ demands conditions subject ↔ Asks conditions subject value := by
  simp [demands, mem_firsts, Asks, and_assoc]

def Contradicted (conditions : List (Condition ι)) (subject : Variable ι) : Prop :=
  ∃ value other, Asks conditions subject value ∧ Asks conditions subject other ∧ value ≠ other

theorem contradicted_iff : Contradicted conditions subject ↔ 2 ≤ (demands conditions subject).length := by
  have hnodup : (demands conditions subject).Nodup := nodup_firsts _
  simp only [Contradicted, ← mem_demands]
  match demands conditions subject, hnodup with
  | [], _ => simp
  | [only], _ => simp
  | first :: second :: rest, hnodup =>
      have hdifferent : first ≠ second := by
        rintro rfl
        simp at hnodup
      exact iff_of_true ⟨first, second, by simp, by simp, hdifferent⟩ (by simp)

/-! ## Conditions by what was asked before -/

def passing (test : List Value → Value → Bool) (conditions : List (Condition ι)) :
    List (Condition ι) :=
  (conditions.zipIdx.filter fun (condition, place) =>
    test (demands (conditions.take place) condition.subject) condition.value).map (·.1)

def leading (conditions : List (Condition ι)) : List (Condition ι) :=
  passing (fun asked _ => asked.isEmpty) conditions

def turning (conditions : List (Condition ι)) : List (Condition ι) :=
  passing (fun asked value => asked.length == 1 && !asked.contains value) conditions

theorem passing_concat (test : List Value → Value → Bool) :
    passing test (conditions ++ [condition]) = passing test conditions ++
      if test (demands conditions condition.subject) condition.value then [condition] else [] := by
  have hearlier : conditions.zipIdx.filter (fun (own, place) =>
        test (demands ((conditions ++ [condition]).take place) own.subject) own.value) =
      conditions.zipIdx.filter fun (own, place) =>
        test (demands (conditions.take place) own.subject) own.value := by
    refine List.filter_congr fun entry hentry => ?_
    have hplace : entry.2 ≤ conditions.length := Nat.le_of_lt (List.snd_lt_of_mem_zipIdx hentry)
    simp only [List.take_append_of_le_length hplace]
  rw [passing, passing, List.zipIdx_append, List.filter_append, List.map_append, hearlier]
  congr 1
  by_cases h : test (demands conditions condition.subject) condition.value <;> simp [h]

private theorem passing_sublist (test : List Value → Value → Bool)
    (conditions : List (Condition ι)) :
    (passing test conditions).Sublist conditions := by
  have hsub := (List.filter_sublist (l := conditions.zipIdx) (p := fun (condition, place) =>
    test (demands (conditions.take place) condition.subject) condition.value)).map (·.1)
  rwa [List.zipIdx_map_fst] at hsub

theorem leading_concat : leading (conditions ++ [condition]) =
    leading conditions ++ if (demands conditions condition.subject).isEmpty then [condition] else [] :=
  passing_concat _

theorem turning_concat : turning (conditions ++ [condition]) = turning conditions ++
    if (demands conditions condition.subject).length == 1 &&
      !(demands conditions condition.subject).contains condition.value then [condition] else [] :=
  passing_concat _

private theorem demands_concat_eq_nil : demands (conditions ++ [condition]) subject = [] ↔
    demands conditions subject = [] ∧ condition.subject.same subject = false := by
  rw [demands_concat]
  split
  · next h =>
    have hmem : condition.value ∈ appendNew (demands conditions subject) [condition.value] :=
      (mem_appendNew _ _).mpr (.inr (by simp))
    simp [h, List.ne_nil_of_mem hmem]
  · next h => simp [h]

theorem exists_leading_iff : (∃ kept ∈ leading conditions, kept.subject.same subject) ↔
    demands conditions subject ≠ [] := by
  induction conditions using List.reverseRecOn with
  | nil => simp [leading, passing]
  | append_singleton conditions condition ih =>
      rw [leading_concat, Ne, demands_concat_eq_nil, not_and_or, ← Ne, ← ih]
      by_cases hsame : condition.subject.same subject
      · by_cases hnone : demands conditions subject = [] <;>
          simp_all [demands_of_same hsame]
      · split <;> simp [hsame, or_and_right, exists_or]

private theorem separate_leading : Separate ((leading conditions).map (·.subject)) := by
  induction conditions using List.reverseRecOn with
  | nil => simp [leading, passing]
  | append_singleton conditions condition ih =>
      rw [leading_concat]
      split
      · next hnone =>
        rw [List.isEmpty_iff] at hnone
        have hnew : ¬ ∃ kept ∈ leading conditions, kept.subject.same condition.subject := by
          simp [exists_leading_iff, hnone]
        simp only [Separate, List.map_append, List.pairwise_append]
        refine ⟨ih, by simp, ?_⟩
        simpa using hnew
      · simpa using ih

theorem demands_concat_of_same (h : condition.subject.same subject) :
    demands (conditions ++ [condition]) subject =
      if condition.value ∈ demands conditions subject then demands conditions subject
      else demands conditions subject ++ [condition.value] := by
  rw [demands_concat, if_pos h]
  rfl

theorem exists_turning_iff : (∃ turn ∈ turning conditions, turn.subject.same subject) ↔
    2 ≤ (demands conditions subject).length := by
  induction conditions using List.reverseRecOn with
  | nil => simp [turning, passing]
  | append_singleton conditions condition ih =>
      simp only [turning_concat, List.mem_append, or_and_right, exists_or, ih]
      by_cases hsame : condition.subject.same subject
      · rw [demands_of_same hsame, demands_concat_of_same hsame]
        by_cases hknown : condition.value ∈ demands conditions subject
        · simp [hknown]
        · by_cases hone : (demands conditions subject).length = 1
          · simp [hknown, hone, hsame]
          · simp [hknown, hone]
            omega
      · rw [demands_concat, if_neg hsame]
        split <;> simp [hsame]

theorem separate_turning : Separate ((turning conditions).map (·.subject)) := by
  induction conditions using List.reverseRecOn with
  | nil => simp [turning, passing]
  | append_singleton conditions condition ih =>
      rw [turning_concat]
      split
      · next hsecond =>
        rw [Bool.and_eq_true, beq_iff_eq] at hsecond
        have hnew : ¬ ∃ turn ∈ turning conditions, turn.subject.same condition.subject := by
          rw [exists_turning_iff]
          omega
        simp only [Separate, List.map_append, List.pairwise_append]
        refine ⟨ih, by simp, ?_⟩
        simpa using hnew
      · simpa using ih

/-! ## Reading conditions -/

private theorem askedValue?_append (first second : List (Condition ι)) (subject : Variable ι) :
    askedValue? (first ++ second) subject =
      (askedValue? first subject).or (askedValue? second subject) := by
  simp [askedValue?, List.find?_append, Option.map_or]

private theorem askedValue?_leading :
    askedValue? (leading conditions) subject = (demands conditions subject).head? := by
  induction conditions using List.reverseRecOn with
  | nil => simp [leading, passing, askedValue?]
  | append_singleton conditions condition ih =>
      rw [leading_concat, askedValue?_append, ih]
      by_cases hsame : condition.subject.same subject
      · rw [demands_of_same hsame, demands_concat_of_same hsame]
        cases hasked : demands conditions subject with
        | nil => simp [askedValue?, hsame]
        | cons value values =>
            by_cases hknown : condition.value ∈ value :: values <;> simp [hknown]
      · rw [demands_concat, if_neg hsame]
        split <;> simp [askedValue?, hsame]

private theorem noteConflict_map {members : List (Condition ι)} (noted : Condition ι → List Value)
    (first value : Value) (h : Separate (members.map (·.subject))) :
    noteConflict subject first value (members.map fun member => (member.subject, noted member)) =
      if members.any (·.subject.same subject) then
        members.map fun member => (member.subject,
          if member.subject.same subject then appendNew (noted member) [value] else noted member)
      else members.map (fun member => (member.subject, noted member)) ++
        [(subject, [first, value])] := by
  induction members with
  | nil => rfl
  | cons member members ih =>
      rw [List.map_cons] at h
      rw [List.map_cons, noteConflict, ih h.of_cons]
      by_cases hsame : member.subject.same subject
      · have hothers : ∀ other ∈ members, other.subject.same subject = false :=
          fun other hother => h.others hsame _ (List.mem_map_of_mem hother)
        have hmap : members.map (fun other => (other.subject, if other.subject.same subject then
              appendNew (noted other) [value] else noted other)) =
            members.map fun other => (other.subject, noted other) :=
          List.map_congr_left fun other hother => by simp [hothers other hother]
        simp [hsame, hmap]
      · by_cases hany : members.any (·.subject.same subject) <;> simp [hsame, hany]

/-- What was read of some conditions: the first one on each variable, and all values of the
variables that are contradicted. -/
def readOf (conditions : List (Condition ι)) : List (Condition ι) × Conflicts ι :=
  (leading conditions,
    (turning conditions).map fun turn => (turn.subject, demands conditions turn.subject))

private theorem readOf_concat_of_new (h : demands conditions condition.subject = []) :
    readOf (conditions ++ [condition]) = (leading conditions ++ [condition], (readOf conditions).2) := by
  have hothers : ∀ turn ∈ turning conditions, condition.subject.same turn.subject = false := by
    intro turn hturn
    rw [Bool.eq_false_iff]
    intro hsame
    have htwo := exists_turning_iff.mp ⟨turn, hturn, same_refl turn.subject⟩
    simp [← demands_of_same hsame, h] at htwo
  rw [readOf, leading_concat, turning_concat]
  simp only [h, List.isEmpty_nil, if_true, readOf]
  congr 1
  simp only [List.length_nil, List.contains_nil, List.append_nil, Nat.reduceBEq, Bool.false_and,
    Bool.false_eq_true, if_false]
  exact List.map_congr_left fun turn hturn => by simp [demands_concat, hothers turn hturn]

private theorem readOf_concat_of_known
    (h : condition.value ∈ demands conditions condition.subject) :
    readOf (conditions ++ [condition]) = readOf conditions := by
  have hdemands : ∀ subject, demands (conditions ++ [condition]) subject =
      demands conditions subject := by
    intro subject
    by_cases hsame : condition.subject.same subject
    · rw [demands_concat_of_same hsame, if_pos (demands_of_same hsame ▸ h)]
    · rw [demands_concat, if_neg hsame]
  have hsome : (demands conditions condition.subject).isEmpty = false := by
    rw [List.isEmpty_eq_false_iff]
    exact List.ne_nil_of_mem h
  simp [readOf, leading_concat, turning_concat, hdemands, hsome, h]

private theorem readOf_concat_of_conflict {first : Value}
    (hfirst : (demands conditions condition.subject).head? = some first)
    (hdifferent : first ≠ condition.value) :
    readOf (conditions ++ [condition]) = (leading conditions,
      noteConflict condition.subject first condition.value (readOf conditions).2) := by
  obtain ⟨others, hasked⟩ := List.head?_eq_some_iff.mp hfirst
  have hdemands : ∀ turn : Condition ι, demands (conditions ++ [condition]) turn.subject =
      if turn.subject.same condition.subject then
        appendNew (demands conditions turn.subject) [condition.value]
      else demands conditions turn.subject := by
    intro turn
    rw [demands_concat, same_comm]
  have hturning : (∃ turn ∈ turning conditions, turn.subject.same condition.subject) ↔
      2 ≤ (demands conditions condition.subject).length := exists_turning_iff
  rw [hasked] at hturning
  simp only [readOf, leading_concat, turning_concat, noteConflict_map _ _ _ separate_turning, hasked,
    List.isEmpty_cons, Bool.false_eq_true, if_false, List.append_nil, Prod.mk.injEq, true_and]
  by_cases hsecond : others = []
  · -- nothing was noted about the variable yet
    have hnone : ∀ turn ∈ turning conditions, turn.subject.same condition.subject = false := by
      simpa [hsecond] using hturning
    have hturns : (turning conditions).map (fun turn =>
          (turn.subject, demands (conditions ++ [condition]) turn.subject)) =
        (turning conditions).map fun turn => (turn.subject, demands conditions turn.subject) :=
      List.map_congr_left fun turn hturn => by simp [hdemands, hnone turn hturn]
    have hany : (turning conditions).any (·.subject.same condition.subject) = false := by
      simpa using hnone
    have hown : demands (conditions ++ [condition]) condition.subject =
        [first, condition.value] := by
      rw [demands_concat_of_same (same_refl _), hasked, hsecond]
      simp [Ne.symm hdifferent]
    simp [hsecond, hany, hturns, hown, Ne.symm hdifferent]
  · have hany : (turning conditions).any (·.subject.same condition.subject) := by
      have hlength := List.length_pos_iff.mpr hsecond
      rw [List.any_eq_true]
      exact hturning.mpr (by simp; omega)
    have hlonger : others.length ≠ 0 := by simpa using hsecond
    simp [hany, hdemands, hlonger]

private theorem foldl_takeCondition_eq (conditions : List (Condition ι)) :
    conditions.foldl takeCondition ([], []) = readOf conditions := by
  induction conditions using List.reverseRecOn with
  | nil => simp [readOf, leading, turning, passing]
  | append_singleton conditions condition ih =>
      have hasked : askedValue? (readOf conditions).1 condition.subject =
          (demands conditions condition.subject).head? := askedValue?_leading
      rw [List.foldl_concat, ih, takeCondition, hasked]
      cases hfirst : (demands conditions condition.subject).head? with
      | none =>
          rw [readOf_concat_of_new (List.head?_eq_none_iff.mp hfirst)]
          rfl
      | some first =>
          by_cases hvalue : first = condition.value
          · have hknown := List.mem_of_head? hfirst
            rw [readOf_concat_of_known (hvalue ▸ hknown)]
            exact if_pos hvalue
          · rw [readOf_concat_of_conflict hfirst hvalue]
            exact if_neg hvalue

/-! ## Rules -/

private theorem turning_eq_nil_iff (conditions : List (Condition ι)) :
    turning conditions = [] ↔ ∀ subject, ¬ Contradicted conditions subject := by
  simp only [contradicted_iff, ← exists_turning_iff]
  constructor
  · intro hnone subject
    simp [hnone]
  · intro hnone
    rw [List.eq_nil_iff_forall_not_mem]
    exact fun turn hturn => hnone turn.subject ⟨turn, hturn, same_refl turn.subject⟩

theorem Rule.of_readOf (conditions : List (Condition ι)) (item : τ) :
    Rule.of conditions item =
      if turning conditions = [] then .ok ⟨leading conditions, item⟩
      else .error (.contradictingConditions ((turning conditions).map fun turn =>
        ⟨turn.subject.display, demands conditions turn.subject⟩)) := by
  rw [Rule.of, foldl_takeCondition_eq, readOf]
  cases turning conditions <;> simp [Function.comp_def]

private theorem exists_leading_of_mem (hnone : ∀ subject, ¬ Contradicted conditions subject)
    (h : condition ∈ conditions) :
    ∃ kept ∈ leading conditions, kept.subject.same condition.subject ∧ kept.value = condition.value := by
  have hasked : Asks conditions condition.subject condition.value :=
    ⟨condition, h, same_refl _, rfl⟩
  obtain ⟨kept, hkept, hsame⟩ := exists_leading_iff.mpr (List.ne_nil_of_mem (mem_demands.mpr hasked))
  refine ⟨kept, hkept, hsame, ?_⟩
  by_contra hdifferent
  exact hnone condition.subject ⟨_, _, ⟨kept, (passing_sublist _ _).subset hkept, hsame, rfl⟩, hasked,
    hdifferent⟩

/-- Conditions make a rule exactly if they contradict themselves about no variable, and the rule
keeps the first condition on each variable.  Otherwise the variables that they contradict themselves
about are reported, each once and in the order in which second values turn up, with all the values
that are asked of them in the order in which these are asked for first; no rule is added then. -/
theorem Rule.of_normalizes (builder : DeciderBuilder ι τ) (conditions : List (Condition ι))
    (item : τ) :
    ((∃ rule, Rule.of conditions item = .ok rule) ↔
      ∀ subject, ¬ Contradicted conditions subject) ∧
    (∀ rule, Rule.of conditions item = .ok rule →
      rule = ⟨leading conditions, item⟩ ∧
      Separate (rule.conditions.map (·.subject)) ∧
      (∀ condition ∈ conditions, ∃ kept ∈ rule.conditions,
        kept.subject.same condition.subject ∧ kept.value = condition.value) ∧
      builder.addRule conditions item =
        (.ok (), { builder with rules := builder.rules ++ [rule] })) ∧
    ∀ error, Rule.of conditions item = .error error →
      error = .contradictingConditions ((turning conditions).map fun turn =>
        ⟨turn.subject.display, demands conditions turn.subject⟩) ∧
      Separate ((turning conditions).map (·.subject)) ∧
      (∀ subject, (∃ turn ∈ turning conditions, turn.subject.same subject) ↔
        Contradicted conditions subject) ∧
      builder.addRule conditions item = (.error error, builder) := by
  have hof := Rule.of_readOf conditions item
  have hnone := turning_eq_nil_iff conditions
  refine ⟨?_, fun rule hrule => ?_, fun error herror => ?_⟩
  · rw [hof, ← hnone]
    by_cases hturning : turning conditions = [] <;> simp [hturning]
  · have hadd : builder.addRule conditions item =
        (.ok (), { builder with rules := builder.rules ++ [rule] }) := by
      rw [DeciderBuilder.addRule, hrule]
    rw [hrule] at hof
    split at hof
    · next hturning =>
      cases hof
      exact ⟨rfl, separate_leading, fun condition => exists_leading_of_mem (hnone.mp hturning), hadd⟩
    · cases hof
  · have hadd : builder.addRule conditions item = (.error error, builder) := by
      rw [DeciderBuilder.addRule, herror]
    rw [herror] at hof
    split at hof
    · cases hof
    · cases hof
      exact ⟨rfl, separate_turning, fun subject => by rw [exists_turning_iff, contradicted_iff], hadd⟩

def mixedConditions : List (Condition Bool) :=
  [⟨flag, .bool true⟩, ⟨flagOff, .bool false⟩, ⟨flagOff, .bool true⟩, ⟨flag, .bool true⟩,
    ⟨flag, .null⟩, ⟨flagOff, .bool false⟩, ⟨flag, .bool false⟩, ⟨flag, .null⟩]

theorem of_normalizes_mixed :
    flagBuilder.addRule mixedConditions "mixed" =
      (.error (.contradictingConditions [⟨"off(flag)", [.bool false, .bool true]⟩,
        ⟨"flag", [.bool true, .null, .bool false]⟩]), flagBuilder) ∧
    (flagBuilder.addRule (mixedConditions.take 2 ++ mixedConditions.take 2) "plain").2.rules =
      flagBuilder.rules ++ [⟨mixedConditions.take 2, "plain"⟩] := by
  have herror : Rule.of mixedConditions "mixed" =
      .error (.contradictingConditions [⟨"off(flag)", [.bool false, .bool true]⟩,
        ⟨"flag", [.bool true, .null, .bool false]⟩]) := by rfl
  have hrule : Rule.of (mixedConditions.take 2 ++ mixedConditions.take 2) "plain" =
      .ok ⟨mixedConditions.take 2, "plain"⟩ := by rfl
  constructor
  · exact ((Rule.of_normalizes flagBuilder mixedConditions "mixed").2.2 _ herror).2.2.2
  · have hadd := ((Rule.of_normalizes flagBuilder _ "plain").2.1 _ hrule).2.2.2
    rw [hadd]

end Runbook.Decision
