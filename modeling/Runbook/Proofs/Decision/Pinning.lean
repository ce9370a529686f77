import Runbook.Proofs.Decision.Failures

/-!
# Pinned variables

A compilation computes a variable only where the values of all its dependencies are assumed.  It
then calls the variable's own function on these values, so a compilation that has room enough fails
only where an own function fails.
-/

namespace Runbook.Decision

open Variable

variable {ι τ π ω : Type}

/-! ## Own functions that fail -/

inductive FailsOn : Variable ι → List Value → VariableError → Prop where
  | text {source : Variable ι} {pattern : String} {regex : Pattern.Regex} {value : Value} :
      value.str? = none → value.isNull = false →
      FailsOn (.regexMatch source pattern regex) [value]
        (.typeMismatch (display (.regexMatch source pattern regex)) "string" value.kind)
  | length {source : Variable ι} {value : Value} :
      value.list? = none → value.str? = none → value.isNull = false →
      FailsOn (.size source) [value] (.typeMismatch (display (.size source)) "list" value.kind)
  | derived {name : String} {dependencies : List (Variable ι)}
      {derive : List Value → Except VariableError Value} {traced : Bool} {values : List Value}
      {error : VariableError} :
      values.length = dependencies.length → derive values = .error error →
      FailsOn (.derived name dependencies derive traced) values error

private theorem matchValue_error (subject : String) (regex : Pattern.Regex) (value : Value)
    (error : VariableError) :
    matchValue subject regex value = .error error ↔
      value.str? = none ∧ value.isNull = false ∧
        .typeMismatch subject "string" value.kind = error := by
  cases value <;> simp [matchValue, mismatch, Value.str?, Value.isNull]

private theorem sizeOfValue_error (subject : String) (value : Value) (error : VariableError) :
    sizeOfValue subject value = .error error ↔
      value.list? = none ∧ value.str? = none ∧ value.isNull = false ∧
        .typeMismatch subject "list" value.kind = error := by
  cases value <;> simp [sizeOfValue, mismatch, Value.list?, Value.str?, Value.isNull]

private theorem failsOn_iff {subject : Variable ι}
    {derive : List Value → Except VariableError Value}
    (hown : subject.ownFunction = .ofValues derive) {values : List Value}
    (hlength : values.length = subject.dependencies.length) (error : VariableError) :
    FailsOn subject values error ↔ derive values = .error error := by
  cases subject with
  | primary => cases hown
  | identity => cases hown
  | predicate =>
      cases hown
      exact ⟨fun hfails => (nomatch hfails), fun herror => (nomatch herror)⟩
  | derived =>
      cases hown
      constructor
      · rintro (_ | _ | ⟨-, herror⟩)
        exact herror
      · exact .derived hlength
  | regexMatch source pattern regex =>
      cases hown
      obtain ⟨value, rfl⟩ := List.length_eq_one_iff.mp hlength
      change _ ↔ matchValue _ regex value = _
      rw [matchValue_error]
      constructor
      · rintro ⟨⟩
        exact ⟨‹_›, ‹_›, rfl⟩
      · rintro ⟨htext, hnull, rfl⟩
        exact .text htext hnull
  | size source =>
      cases hown
      obtain ⟨value, rfl⟩ := List.length_eq_one_iff.mp hlength
      change _ ↔ sizeOfValue _ value = _
      rw [sizeOfValue_error]
      constructor
      · rintro ⟨⟩
        exact ⟨‹_›, ‹_›, ‹_›, rfl⟩
      · rintro ⟨hlist, htext, hnull, rfl⟩
        exact .length hlist htext hnull

/-! ## Assumed dependencies -/

def AssumedAs (assumptions : Assumptions ι) (subjects : List (Variable ι)) (values : List Value) :
    Prop :=
  List.Forall₂ (fun subject value => assumed? assumptions subject = some value) subjects values

private theorem mapM_assumedDependency {assumptions : Assumptions ι} (target : Variable ι)
    {subjects : List (Variable ι)}
    (h : ∀ subject ∈ subjects, (assumed? assumptions subject).isSome) :
    ∃ values, AssumedAs assumptions subjects values ∧
      subjects.mapM (assumedDependency target assumptions) = .ok values := by
  induction subjects with
  | nil => exact ⟨[], .nil, rfl⟩
  | cons subject subjects ih =>
      rw [List.forall_mem_cons] at h
      obtain ⟨value, hvalue⟩ := Option.isSome_iff_exists.mp h.1
      obtain ⟨values, hvalues, hrest⟩ := ih h.2
      refine ⟨value :: values, .cons hvalue hvalues, ?_⟩
      simp [List.mapM_cons, assumedDependency, hvalue, hrest, bind, Except.bind, pure, Except.pure]

private theorem ownFunction_of_isMeta {subject : Variable ι} (h : subject.isMeta) :
    ∃ derive, subject.ownFunction = .ofValues derive := by
  cases subject with
  | primary => cases h
  | identity => cases h
  | _ => exact ⟨_, rfl⟩

/-- A pinned variable is computed by its own function from what is assumed of its dependencies: the
input is not asked for, nor anything that is not assumed. -/
theorem evaluateAssumed_of_pinned {assumptions : Assumptions ι} {subject : Variable ι}
    (h : isPinned assumptions subject) :
    ∃ derive values, subject.ownFunction = .ofValues derive ∧
      AssumedAs assumptions subject.dependencies values ∧
      evaluateAssumed subject assumptions = (derive values, true) := by
  simp only [isPinned, Bool.and_eq_true, List.all_eq_true] at h
  obtain ⟨⟨hmeta, -⟩, hassumed⟩ := h
  obtain ⟨derive, hown⟩ := ownFunction_of_isMeta hmeta
  obtain ⟨values, hvalues, hmapM⟩ := mapM_assumedDependency subject hassumed
  exact ⟨derive, values, hown, hvalues, by simp [evaluateAssumed, hmapM, hown]⟩

/-! ## Where a compilation comes to -/

/-- What a compilation of rules comes to: the rules that are left, and what is assumed.  An
assumption is the value of a branch, or the value of a variable that earlier ones pinned. -/
inductive ComesTo (rules : List (Rule ι τ)) : List (Rule ι τ) → Assumptions ι → Prop where
  | start : ComesTo rules rules []
  | settled {left : List (Rule ι τ)} {assumptions : Assumptions ι} {subject : Variable ι}
      {value : Value} :
      ComesTo rules left assumptions → pickSplit left = some subject →
      isPinned assumptions subject → (evaluateAssumed subject assumptions).1 = .ok value →
      ComesTo rules (settle left subject value) ((subject, value) :: assumptions)
  | branch {left : List (Rule ι τ)} {assumptions : Assumptions ι} {subject : Variable ι}
      {value : Value} :
      ComesTo rules left assumptions → pickSplit left = some subject →
      isPinned assumptions subject = false → value ∈ askedValues left subject →
      ComesTo rules (askingFor left subject value ++ conditionalOn left subject)
        ((subject, value) :: assumptions)
  | otherwise {left : List (Rule ι τ)} {assumptions : Assumptions ι} {subject : Variable ι} :
      ComesTo rules left assumptions → pickSplit left = some subject →
      isPinned assumptions subject = false →
      ComesTo rules (conditionalOn left subject) assumptions

theorem ComesTo.within {known : Variable ι → Prop} {rules left : List (Rule ι τ)}
    {assumptions : Assumptions ι} (h : ComesTo rules left assumptions)
    (hwithin : Within known rules) : Within known left := by
  induction h with
  | start => exact hwithin
  | settled _ _ _ _ ih => exact within_settle ih
  | branch _ _ _ _ ih => exact within_branch ih
  | otherwise _ _ _ ih => exact within_conditional ih

def Breaks (rules : List (Rule ι τ)) (subject : Variable ι) (source : VariableError) : Prop :=
  ∃ left assumptions values, ComesTo rules left assumptions ∧ pickSplit left = some subject ∧
    AssumedAs assumptions subject.dependencies values ∧ FailsOn subject values source

private theorem breaks_of_pinnedValue {rules left : List (Rule ι τ)} {assumptions : Assumptions ι}
    {subject : Variable ι} {progress last : Progress ι} {error : DecisionError}
    (hcomes : ComesTo rules left assumptions) (hpick : pickSplit left = some subject)
    (h : pinnedValue assumptions subject progress = .error error last) :
    ∃ source, error = .assumptionViolated subject.display source ∧ Breaks rules subject source := by
  obtain ⟨hpinned, -⟩ := pinnedValue_error h
  obtain ⟨derive, values, hown, hvalues, hevaluate⟩ := evaluateAssumed_of_pinned hpinned
  rw [pinnedValue, if_pos hpinned, hevaluate] at h
  cases hresult : derive values with
  | ok value =>
      rw [hresult] at h
      cases h
  | error source =>
      rw [hresult] at h
      cases h
      have hfails := (failsOn_iff hown hvalues.length_eq.symm source).mpr hresult
      exact ⟨source, rfl, left, assumptions, values, hcomes, hpick, hvalues, hfails⟩

private theorem pinned_of_some {assumptions : Assumptions ι} {subject : Variable ι} {value : Value}
    {progress last : Progress ι} (h : pinnedValue assumptions subject progress = .ok (some value) last) :
    isPinned assumptions subject := by
  by_contra hpinned
  rw [pinnedValue, if_neg hpinned] at h
  cases h

theorem compile_breaks (limit : Option Nat) (fuel : Nat) {rules left : List (Rule ι τ)}
    {assumptions : Assumptions ι} (hcomes : ComesTo rules left assumptions)
    {progress last : Progress ι} {error : DecisionError}
    (h : compile limit fuel left assumptions progress = .error error last) :
    (∃ most, limit = some most ∧ error = .treeTooLarge most) ∨
      ∃ subject source, error = .assumptionViolated subject.display source ∧
        Breaks rules subject source := by
  induction fuel generalizing left assumptions progress last with
  | zero =>
      rw [compile] at h
      rcases bind_error h with hid | ⟨id, next, -, h⟩
      · exact .inl (newNode_error hid)
      · cases h
  | succ fuel ih =>
      rw [compile] at h
      cases hpick : pickSplit left with
      | none =>
          simp only [hpick] at h
          rcases bind_error h with hid | ⟨id, next, -, h⟩
          · exact .inl (newNode_error hid)
          · cases h
      | some subject =>
          simp only [hpick] at h
          rcases bind_error h with hpinned | ⟨pinned, next, hpinned, h⟩
          · exact .inr ⟨subject, breaks_of_pinnedValue hcomes hpick hpinned⟩
          cases pinned with
          | some value =>
              have hvalue := (pinnedValue_ok hpinned).2 value rfl
              exact ih (hcomes.settled hpick (pinned_of_some hpinned) hvalue) h
          | none =>
              have hunpinned := unpinned_of_none hpinned
              rcases bind_error h with hid | ⟨id, made, -, h⟩
              · exact .inl (newNode_error hid)
              rcases optional_error h with htree | ⟨otherwise, below, h⟩
              · exact ih (hcomes.otherwise hpick hunpinned) htree
              rcases bind_error h with hbranches | ⟨branches, final, -, h⟩
              · obtain ⟨value, hvalue, start, final, hbranch⟩ := mapM_error hbranches
                rcases bind_error hbranch with htree | ⟨tree, next, -, h⟩
                · exact ih (hcomes.branch hpick hunpinned hvalue) htree
                · cases h
              · cases h

/-! ## Builds -/

theorem Breaks.mentioned {rules : List (Rule ι τ)} {subject : Variable ι} {source : VariableError}
    (h : Breaks rules subject source) : subject ∈ mentions rules := by
  obtain ⟨left, assumptions, values, hcomes, hpick, -⟩ := h
  have hwithin : Within (· ∈ mentions rules) rules := fun rule hrule condition hcondition =>
    mem_mentions.mpr ⟨rule, hrule, condition, hcondition, rfl⟩
  exact known_of_mention (hcomes.within hwithin) (mem_mentions_of_pickSplit hpick)

theorem FailsOn.isMeta {subject : Variable ι} {values : List Value} {error : VariableError}
    (h : FailsOn subject values error) : subject.isMeta := by
  cases h <;> rfl

theorem compile_error {known : Variable ι → Prop} {rules : List (Rule ι τ)} (limit : Option Nat)
    (fuel : Nat) (hwithin : Within known rules) {progress last : Progress ι}
    {error : DecisionError} (h : compile limit fuel rules [] progress = .error error last) :
    (∃ most, limit = some most ∧ error = .treeTooLarge most) ∨
      ∃ subject, known subject ∧ subject.isMeta ∧
        ∃ source, error = .assumptionViolated subject.display source := by
  refine (compile_breaks limit fuel .start h).imp_right ?_
  rintro ⟨subject, source, herror, left, assumptions, values, hcomes, hpick, -, hfails⟩
  exact ⟨subject, known_of_mention (hcomes.within hwithin) (mem_mentions_of_pickSplit hpick),
    hfails.isMeta, source, herror⟩

/-- A build stays inside its assumptions: whatever is assumed, a pinned variable is computed by its
own function from assumed values.  So a build fails only for want of room, or because the own
function of some mentioned variable fails on the values that are assumed on some way down; and if
no own function of a mentioned variable can fail, it fails only for want of room. -/
theorem DeciderBuilder.build_stays_inside (builder : DeciderBuilder ι τ)
    (factory : Factory ι τ π ω) :
    (∀ (assumptions : Assumptions ι) (subject : Variable ι), isPinned assumptions subject →
      ∃ derive values, subject.ownFunction = .ofValues derive ∧
        AssumedAs assumptions subject.dependencies values ∧
        evaluateAssumed subject assumptions = (derive values, true)) ∧
    ∀ error, (builder.build factory).outcome = .error error →
      ((∃ most, builder.config.maxNodes = some most ∧ error = .treeTooLarge most) ∨
        ∃ subject source, subject ∈ mentions builder.rules ∧
          error = .assumptionViolated subject.display source ∧
          Breaks builder.rules subject source) ∧
      ((∀ subject ∈ mentions builder.rules, ∀ values source, ¬ FailsOn subject values source) →
        ∃ most, builder.config.maxNodes = some most ∧ error = .treeTooLarge most) := by
  refine ⟨fun assumptions subject => evaluateAssumed_of_pinned, fun error hbuild => ?_⟩
  obtain ⟨last, hcompile⟩ := build_failed hbuild
  rcases compile_breaks _ _ .start hcompile with hroom | ⟨subject, source, herror, hbreaks⟩
  · exact ⟨.inl hroom, fun _ => hroom⟩
  · refine ⟨.inr ⟨subject, source, hbreaks.mentioned, herror, hbreaks⟩, fun hnone => ?_⟩
    obtain ⟨-, -, values, -, -, -, hfails⟩ := id hbreaks
    exact absurd hfails (hnone subject hbreaks.mentioned values source)

def lengthRules : List (Entry Bool String) :=
  [([⟨flag, .bool true⟩, ⟨.size flag, .int 1⟩], "long"), ([⟨flag, .bool false⟩], "off")]

def lengthBuilder : DeciderBuilder Bool String :=
  lengthRules.foldl (fun builder rule => (builder.addRule rule.1 rule.2).2) (.new .unlimited)

def narrowBuilder : DeciderBuilder Bool String := { flagBuilder with config := ⟨some 1⟩ }

theorem build_stays_inside_lengths :
    (∃ error, (lengthBuilder.build (Factory.ofItems id)).outcome = .error error ∧
      ∃ subject source, error = .assumptionViolated subject.display source ∧
        Breaks lengthBuilder.rules subject source) ∧
    (∀ subject ∈ mentions narrowBuilder.rules, ∀ values source, ¬ FailsOn subject values source) ∧
    (narrowBuilder.build (Factory.ofItems id)).outcome = .error (.treeTooLarge 1) := by
  have hlength : ∃ error, (lengthBuilder.build (Factory.ofItems id)).outcome = .error error :=
    ⟨_, rfl⟩
  have hnarrow : ∃ error, (narrowBuilder.build (Factory.ofItems id)).outcome = .error error :=
    ⟨_, rfl⟩
  have hnone : ∀ subject ∈ mentions narrowBuilder.rules, ∀ values source,
      ¬ FailsOn subject values source := by
    have hmentions : mentions narrowBuilder.rules = [flag, flagOff, flag, flagOff] := rfl
    rw [hmentions]
    intro subject hsubject values source hfails
    simp only [List.mem_cons, List.not_mem_nil, or_false] at hsubject
    rcases hsubject with rfl | rfl | rfl | rfl <;> cases hfails
  refine ⟨?_, hnone, ?_⟩
  · obtain ⟨error, hlength⟩ := hlength
    obtain ⟨most, hmost, -⟩ | ⟨subject, source, -, herror, hbreaks⟩ :=
      ((lengthBuilder.build_stays_inside (Factory.ofItems id)).2 error hlength).1
    · cases hmost
    · exact ⟨error, hlength, subject, source, herror, hbreaks⟩
  · obtain ⟨error, herror⟩ := hnarrow
    obtain ⟨most, hmost, rfl⟩ :=
      ((narrowBuilder.build_stays_inside (Factory.ofItems id)).2 error herror).2 hnone
    cases hmost
    exact herror

end Runbook.Decision
