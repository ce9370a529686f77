import Runbook.Decision.Context
import Runbook.Decision.Rule
import Mathlib.Logic.Relation

/-!
# What variables mean

The value of a variable on an input, without a context.  If equal variables have equal values, then
a live context gives these values, whatever was asked of it before.
-/

namespace Runbook

theorem exists_of_any {ε α : Type} {result : Except ε α} {test : α → Bool}
    (h : result.toOption.any test) : ∃ value, result = .ok value ∧ test value := by
  cases result with
  | ok value => exact ⟨value, rfl, h⟩
  | error error => cases h

namespace Variable

variable {ι : Type}

/-! ## Values -/

def apply (subject : Variable ι) (input : ι) (values : List Value) : Except VariableError Value :=
  match subject.ownFunction with
  | .ofInput read => read input
  | .ofValues derive => derive values

mutual

def valueOn (input : ι) : Variable ι → Except VariableError Value
  | .primary name read traced => apply (.primary name read traced) input []
  | .identity convert => apply (.identity convert) input []
  | .predicate source label test traced => do
    let value ← valueOn input source
    apply (.predicate source label test traced) input [value]
  | .derived name dependencies derive traced => do
    let values ← valuesOn input dependencies
    apply (.derived name dependencies derive traced) input values
  | .regexMatch source pattern regex => do
    let value ← valueOn input source
    apply (.regexMatch source pattern regex) input [value]
  | .size source => do
    let value ← valueOn input source
    apply (.size source) input [value]

def valuesOn (input : ι) : List (Variable ι) → Except VariableError (List Value)
  | [] => .ok []
  | subject :: subjects => do
    let value ← valueOn input subject
    let values ← valuesOn input subjects
    return value :: values

end

theorem valueOn_eq (input : ι) (subject : Variable ι) :
    subject.valueOn input = valuesOn input subject.dependencies >>= subject.apply input := by
  cases subject with
  | primary => rfl
  | identity => rfl
  | derived => rw [valueOn, dependencies]
  | predicate source =>
      rw [valueOn, dependencies, valuesOn, valuesOn]
      cases source.valueOn input <;> rfl
  | regexMatch source =>
      rw [valueOn, dependencies, valuesOn, valuesOn]
      cases source.valueOn input <;> rfl
  | size source =>
      rw [valueOn, dependencies, valuesOn, valuesOn]
      cases source.valueOn input <;> rfl

theorem sizeOf_dependency {subject dependency : Variable ι}
    (h : dependency ∈ subject.dependencies) : sizeOf dependency < sizeOf subject := by
  cases subject with
  | primary => simp [dependencies] at h
  | identity => simp [dependencies] at h
  | derived name dependencies =>
      have := List.sizeOf_lt_of_mem h
      simp only [derived.sizeOf_spec, Variable.dependencies] at this ⊢
      omega
  | predicate source =>
      rw [List.mem_singleton.mp h]
      simp only [predicate.sizeOf_spec]
      omega
  | regexMatch source =>
      rw [List.mem_singleton.mp h]
      simp only [regexMatch.sizeOf_spec]
      omega
  | size source =>
      rw [List.mem_singleton.mp h]
      simp only [size.sizeOf_spec]
      omega

/-! ## Identity -/

mutual

theorem same_refl (subject : Variable ι) : subject.same subject := by
  cases subject with
  | primary => simp [same]
  | identity => simp [same]
  | predicate source => simp [same, same_refl source]
  | derived name dependencies => simp [same, sameAll_refl dependencies]
  | regexMatch source => simp [same, same_refl source]
  | size source => simp [same, same_refl source]

theorem sameAll_refl (subjects : List (Variable ι)) : sameAll subjects subjects := by
  cases subjects with
  | nil => simp [sameAll]
  | cons subject subjects => simp [sameAll, same_refl subject, sameAll_refl subjects]

end

mutual

theorem same_comm (first second : Variable ι) : first.same second = second.same first := by
  cases first <;> cases second <;> simp only [same]
  · exact BEq.comm
  · next source label _ _ other otherLabel _ _ => rw [same_comm source other, BEq.comm (a := label)]
  · next name own _ _ otherName others _ _ => rw [sameAll_comm own others, BEq.comm (a := name)]
  · next source text _ other otherText _ => rw [same_comm source other, BEq.comm (a := text)]
  · next source other => exact same_comm source other

theorem sameAll_comm (first second : List (Variable ι)) :
    sameAll first second = sameAll second first := by
  cases first with
  | nil => cases second <;> rfl
  | cons subject subjects =>
      cases second with
      | nil => rfl
      | cons other others =>
          rw [sameAll, sameAll, same_comm subject other, sameAll_comm subjects others]

end

mutual

theorem same_congr {first second : Variable ι} (h : first.same second) (third : Variable ι) :
    first.same third = second.same third := by
  cases first <;> cases second <;> try (simp [same] at h; done)
  · next name _ _ _ _ _ =>
    obtain rfl : name = _ := by simpa [same] using h
    cases third <;> rfl
  · cases third <;> rfl
  · next source label _ _ other _ _ _ =>
    obtain ⟨rfl, hsource⟩ : label = _ ∧ source.same other := by simpa [same] using h
    cases third <;> simp only [same, same_congr hsource]
  · next name own _ _ _ others _ _ =>
    obtain ⟨rfl, hall⟩ : name = _ ∧ sameAll own others := by simpa [same] using h
    cases third <;> simp only [same, sameAll_congr hall]
  · next source text _ other _ _ =>
    obtain ⟨rfl, hsource⟩ : text = _ ∧ source.same other := by simpa [same] using h
    cases third <;> simp only [same, same_congr hsource]
  · next source other =>
    have hsource : source.same other := by simpa [same] using h
    cases third <;> simp only [same, same_congr hsource]

theorem sameAll_congr {first second : List (Variable ι)} (h : sameAll first second)
    (third : List (Variable ι)) : sameAll first third = sameAll second third := by
  cases first with
  | nil =>
      cases second with
      | nil => rfl
      | cons other others => simp [sameAll] at h
  | cons subject subjects =>
      cases second with
      | nil => simp [sameAll] at h
      | cons other others =>
          obtain ⟨hfirst, hrest⟩ : subject.same other ∧ sameAll subjects others := by
            simpa [sameAll] using h
          cases third with
          | nil => rfl
          | cons member members =>
              rw [sameAll, sameAll, same_congr hfirst, sameAll_congr hrest]

end

theorem same_trans {first second third : Variable ι} (hfirst : first.same second)
    (hsecond : second.same third) : first.same third :=
  (same_congr hfirst third).trans hsecond

theorem same_right {first second : Variable ι} (h : first.same second) (third : Variable ι) :
    third.same first = third.same second := by
  rw [same_comm third, same_comm third, same_congr h]

/-- A set of variables that has their dependencies, and in which equal variables have equal
values. -/
structure Coherent (known : Variable ι → Prop) : Prop where
  closed : ∀ subject, known subject → ∀ dependency ∈ subject.dependencies, known dependency
  equal : ∀ a b, known a → known b → a.same b → ∀ input, a.valueOn input = b.valueOn input

def Agrees (known : Variable ι → Prop) (input : ι) (table : List (Variable ι × Value)) : Prop :=
  ∀ entry ∈ table, known entry.1 ∧ entry.1.valueOn input = .ok entry.2

section

variable {known : Variable ι → Prop} {input : ι} {table : List (Variable ι × Value)}
  {subject : Variable ι} {value : Value}

theorem Agrees.find? (hcoherent : Coherent known) (h : Agrees known input table)
    (hknown : known subject) (hfind : Variable.find? table subject = some value) :
    subject.valueOn input = .ok value := by
  obtain ⟨entry, hentry, rfl⟩ := Option.map_eq_some_iff.mp hfind
  have hsame := List.find?_some hentry
  obtain ⟨hown, hvalue⟩ := h entry (List.mem_of_find?_eq_some hentry)
  rw [← hcoherent.equal entry.1 subject hown hknown hsame, hvalue]

end

end Variable

/-! ## Live contexts -/

namespace Decision

open Variable

variable {ι α : Type} {known : Variable ι → Prop} {input : ι} {context : Context ι}

/-- A context that has seen no value but those on its input. -/
structure Faithful (known : Variable ι → Prop) (input : ι) (context : Context ι) : Prop where
  input_eq : context.input = input
  agrees : Agrees known input context.resolved

def Computes (known : Variable ι → Prop) (input : ι) (computation : Live ι α)
    (expected : Except VariableError α) : Prop :=
  ∀ context, Faithful known input context →
    match computation context with
    | .ok value next => expected = .ok value ∧ Faithful known input next
    | .error error next => expected = .error error ∧ Faithful known input next

theorem Computes.bind {β : Type} {computation : Live ι α} {rest : α → Live ι β}
    {expected : Except VariableError α} {later : α → Except VariableError β}
    (h : Computes known input computation expected)
    (hrest : ∀ value, expected = .ok value → Computes known input (rest value) (later value)) :
    Computes known input (computation >>= rest) (expected >>= later) := by
  intro context hfaithful
  have hfirst := h context hfaithful
  change match EStateM.bind computation rest context with
    | .ok value next => expected >>= later = .ok value ∧ Faithful known input next
    | .error error next => expected >>= later = .error error ∧ Faithful known input next
  rw [EStateM.bind]
  cases hrun : computation context with
  | ok value next =>
      rw [hrun] at hfirst
      obtain ⟨rfl, hnext⟩ := hfirst
      exact hrest value rfl next hnext
  | error error next =>
      rw [hrun] at hfirst
      obtain ⟨rfl, hnext⟩ := hfirst
      exact ⟨rfl, hnext⟩

theorem Computes.pure (value : α) : Computes known input (pure value) (.ok value) :=
  fun _ hfaithful => ⟨rfl, hfaithful⟩

theorem call_eq (subject : Variable ι) (values : List Value) :
    Live.call subject values context =
      match subject.apply context.input values with
      | .ok value => .ok value (context.noteCall subject)
      | .error error => .error error (context.noteCall subject) := rfl

private theorem computes_call (subject : Variable ι) (values : List Value) :
    Computes known input (Live.call subject values) (subject.apply input values) := by
  intro context hfaithful
  rw [call_eq, hfaithful.input_eq]
  cases subject.apply input values with
  | ok value => exact ⟨rfl, hfaithful.input_eq, hfaithful.agrees⟩
  | error error => exact ⟨rfl, hfaithful.input_eq, hfaithful.agrees⟩

theorem Faithful.remember {subject : Variable ι} {value : Value}
    (h : Faithful known input context) (hknown : known subject)
    (hvalue : subject.valueOn input = .ok value) :
    Faithful known input (context.remember subject value) := by
  rw [Context.remember]
  split
  · exact h
  · refine ⟨h.input_eq, fun entry hentry => ?_⟩
    rcases List.mem_append.mp hentry with hold | hnew
    · exact h.agrees entry hold
    · rw [List.mem_singleton.mp hnew]
      exact ⟨hknown, hvalue⟩

theorem computes_fetch (hcoherent : Coherent known) {subject : Variable ι}
    {compute : Live ι Value} (hknown : known subject)
    (h : Computes known input compute (subject.valueOn input)) :
    Computes known input (Live.fetch subject compute) (subject.valueOn input) := by
  intro context hfaithful
  rw [Live.fetch]
  cases hvalue : context.value? subject with
  | some value => exact ⟨hfaithful.agrees.find? hcoherent hknown hvalue, hfaithful⟩
  | none =>
      have hcomputed := h context hfaithful
      cases hrun : compute context with
      | ok value next =>
          rw [hrun] at hcomputed
          exact ⟨hcomputed.1, hcomputed.2.remember hknown hcomputed.1⟩
      | error error next =>
          rw [hrun] at hcomputed
          exact hcomputed

private theorem computes_fetchAll (hcoherent : Coherent known) {subjects : List (Variable ι)}
    (hknown : ∀ subject ∈ subjects, known subject)
    (h : ∀ subject ∈ subjects,
      Computes known input (Live.evaluate subject) (subject.valueOn input)) :
    Computes known input (Live.fetchAll subjects) (valuesOn input subjects) := by
  induction subjects with
  | nil => exact .pure []
  | cons subject subjects ih =>
      rw [List.forall_mem_cons] at hknown h
      rw [Live.fetchAll, valuesOn]
      refine (computes_fetch hcoherent hknown.1 h.1).bind fun value _ => ?_
      exact (ih hknown.2 h.2).bind fun values _ => .pure _

theorem evaluate_eq (subject : Variable ι) :
    Live.evaluate subject = Live.fetchAll subject.dependencies >>= Live.call subject := by
  cases subject with
  | primary => rw [Live.evaluate, dependencies, Live.fetchAll, pure_bind]
  | identity => rw [Live.evaluate, dependencies, Live.fetchAll, pure_bind]
  | derived => rw [Live.evaluate, dependencies]
  | predicate source =>
      rw [Live.evaluate, dependencies, Live.fetchAll, Live.fetchAll]
      simp only [bind_assoc, pure_bind]
  | regexMatch source =>
      rw [Live.evaluate, dependencies, Live.fetchAll, Live.fetchAll]
      simp only [bind_assoc, pure_bind]
  | size source =>
      rw [Live.evaluate, dependencies, Live.fetchAll, Live.fetchAll]
      simp only [bind_assoc, pure_bind]

theorem computes_evaluate (hcoherent : Coherent known) (subject : Variable ι)
    (hknown : known subject) :
    Computes known input (Live.evaluate subject) (subject.valueOn input) := by
  have hdependencies : ∀ dependency ∈ subject.dependencies, known dependency :=
    hcoherent.closed subject hknown
  rw [evaluate_eq, valueOn_eq]
  refine (computes_fetchAll hcoherent hdependencies fun dependency hdependency => ?_).bind
    fun values _ => computes_call subject values
  exact computes_evaluate hcoherent dependency (hdependencies dependency hdependency)
termination_by sizeOf subject
decreasing_by exact sizeOf_dependency hdependency

theorem computes_get (hcoherent : Coherent known) {subject : Variable ι} (hknown : known subject) :
    Computes known input (Live.get subject) (subject.valueOn input) :=
  computes_fetch hcoherent hknown (computes_evaluate hcoherent subject hknown)

theorem Faithful.new (known : Variable ι → Prop) (input : ι) :
    Faithful known input (.new input) :=
  ⟨rfl, by simp [Context.new, Agrees]⟩

/-! ## Conditions -/

def Condition.holdsOn (input : ι) (condition : Condition ι) : Bool :=
  match Live.get condition.subject (.new input) with
  | .ok value _ => value = condition.value
  | .error _ _ => false

theorem Condition.holdsOn_iff (hcoherent : Coherent known) {condition : Condition ι}
    (hknown : known condition.subject) :
    condition.holdsOn input ↔ condition.subject.valueOn input = .ok condition.value := by
  have hget := computes_get hcoherent hknown (.new input) (.new known input)
  rw [Condition.holdsOn]
  cases hrun : Live.get condition.subject (.new input) with
  | ok value next =>
      rw [hrun] at hget
      simp [hget.1]
  | error error next =>
      rw [hrun] at hget
      simp [hget.1]

/-! ## Assumed values -/

private theorem mapM_assumed (hcoherent : Coherent known) {assumptions : Assumptions ι}
    (h : Agrees known input assumptions) (target : Variable ι) {subjects : List (Variable ι)}
    (hknown : ∀ subject ∈ subjects, known subject) {values : List Value}
    (hvalues : subjects.mapM (assumedDependency target assumptions) = .ok values) :
    valuesOn input subjects = .ok values := by
  induction subjects generalizing values with
  | nil =>
      rw [List.mapM_nil] at hvalues
      cases hvalues
      rfl
  | cons subject subjects ih =>
      rw [List.forall_mem_cons] at hknown
      rw [List.mapM_cons] at hvalues
      cases hassumed : assumed? assumptions subject with
      | none => simp [assumedDependency, hassumed, bind, Except.bind] at hvalues
      | some value =>
          cases hrest : subjects.mapM (assumedDependency target assumptions) with
          | error => simp [assumedDependency, hassumed, hrest, bind, Except.bind] at hvalues
          | ok rest =>
              simp only [assumedDependency, hassumed, hrest, bind, Except.bind, pure,
                Except.pure, Except.ok.injEq] at hvalues
              rw [valuesOn, h.find? hcoherent hknown.1 hassumed, ih hknown.2 hrest, ← hvalues]
              rfl

theorem evaluateAssumed_sound (hcoherent : Coherent known) {assumptions : Assumptions ι}
    (h : Agrees known input assumptions) {target : Variable ι} (hknown : known target)
    {value : Value} (hvalue : (evaluateAssumed target assumptions).1 = .ok value) :
    target.valueOn input = .ok value := by
  rw [evaluateAssumed] at hvalue
  split at hvalue
  · cases hvalue
  · next values hvalues =>
    rw [valueOn_eq, mapM_assumed hcoherent h target (hcoherent.closed target hknown) hvalues]
    change target.apply input values = .ok value
    rw [Variable.apply]
    cases hown : target.ownFunction with
    | ofInput read =>
        rw [hown] at hvalue
        cases hvalue
    | ofValues derive =>
        rw [hown] at hvalue
        exact hvalue

end Decision

end Runbook
