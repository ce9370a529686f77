import Runbook.Proofs.Decision.Evaluation
import Runbook.Proofs.Decision.Paths
import Runbook.Proofs.Decision.Structure
import Mathlib.Data.List.Forall2
import Mathlib.Data.List.GetD

/-!
# Conditions of path expressions

What the conditions of a path expression say of a path, step by step.  An expression that is exact
holds for the paths of which each step is admitted by the step of the source at its place; one that
is not exact holds for all paths that go on after such steps, and for some others.
-/

namespace Runbook

/-! ## Counts as values -/

theorem greatestWord_toInt : Int64.maxValue.toInt = 9223372036854775807 := by
  decide

theorem Value.ofNat_eq_int (count : Nat) :
    Value.ofNat count = .int (.ofInt (min count Int64.maxValue.toInt)) := by
  have hleast : Int64.minValue.toInt ≤ 0 := by decide
  rw [Value.ofNat, Value.ofInt?]
  split
  · have hcount : min (count : Int) Int64.maxValue.toInt = count := by omega
    rw [Option.getD_some, hcount]
  · have hgreatest : min (count : Int) Int64.maxValue.toInt = Int64.maxValue.toInt := by omega
    rw [Option.getD_none, hgreatest, Int64.ofInt_toInt]

theorem Value.ofNat_eq_iff {count other : Nat} (h : other < Int64.maxValue.toInt) :
    Value.ofNat count = Value.ofNat other ↔ count = other := by
  refine ⟨fun hequal => ?_, congrArg _⟩
  rw [ofNat_eq_int, ofNat_eq_int, int.injEq, greatestWord_toInt] at hequal
  rw [greatestWord_toInt] at h
  have hwords := congrArg Int64.toInt hequal
  have hcount := Int.natCast_nonneg count
  rw [Int64.toInt_ofInt_of_le (by omega) (by omega), Int64.toInt_ofInt_of_le (by omega) (by omega)]
    at hwords
  omega

namespace Decision

open PathExpression Variable

variable {ι τ : Type} {input : ι}

/-! ## Values in a new context -/

def firstValue (input : ι) (subject : Variable ι) : Except VariableError Value :=
  match Live.get subject (.new input) with
  | .ok value _ => .ok value
  | .error error _ => .error error

theorem Condition.holdsOn_iff_firstValue (condition : Condition ι) :
    condition.holdsOn input ↔ firstValue input condition.subject = .ok condition.value := by
  rw [Condition.holdsOn, firstValue]
  cases Live.get condition.subject (.new input) <;> simp

theorem Condition.all_singleton_iff (condition : Condition ι) :
    [condition].all (·.holdsOn input) ↔
      firstValue input condition.subject = .ok condition.value := by
  rw [List.all_cons, List.all_nil, Bool.and_true, condition.holdsOn_iff_firstValue]

section

variable {subject source : Variable ι} (h : subject.dependencies = [source])

include h

private theorem apply_of_source (input other : ι) (values : List Value) :
    subject.apply input values = subject.apply other values := by
  cases subject with
  | primary => cases h
  | identity => cases h
  | predicate => rfl
  | derived => rfl
  | regexMatch => rfl
  | size => rfl

theorem evaluate_of_source (context : Context ι) :
    Live.evaluate subject context =
      match Live.get source context with
      | .ok value next => Live.call subject [value] next
      | .error error next => .error error next := by
  rw [evaluate_eq, h, Live.fetchAll, Live.fetchAll, bind_assoc]
  simp only [pure_bind]
  change EStateM.bind (Live.get source) _ context = _
  rw [EStateM.bind]
  cases Live.get source context <;> rfl

theorem firstValue_of_source :
    firstValue input subject =
      firstValue input source >>= fun value => subject.apply input [value] := by
  have hget : Live.get subject (.new input) =
      match Live.evaluate subject (.new input) with
      | .ok value context => .ok value (context.remember subject value)
      | .error error context => .error error context := rfl
  rw [firstValue, firstValue, hget, evaluate_of_source h]
  cases Live.get source (.new input) with
  | error error context => rfl
  | ok value context =>
      simp only [call_eq, apply_of_source h context.input input, bind, Except.bind]
      cases subject.apply input [value] <;> rfl

end

/-! ## Variables of a path -/

section

variable {path : Variable ι} {text : String}

private theorem firstValue_segmentsOf (h : firstValue input path = .ok (.str text)) :
    firstValue input (segmentsOf path) = .ok (.list ((parsePath text).map .str)) := by
  rw [firstValue_of_source rfl, h]
  rfl

variable {segments : Variable ι} {texts : List String}
  (hsegments : firstValue input segments = .ok (.list (texts.map .str)))

include hsegments

private theorem firstValue_stepOf (index : Nat) :
    firstValue input (stepOf segments index) = .ok (.str (texts.getD index "")) := by
  rw [firstValue_of_source rfl, hsegments]
  change Except.ok ((texts.map Value.str).getD index (.str "")) = _
  rw [List.getD_map]

private theorem firstValue_size :
    firstValue input (.size segments) = .ok (.ofNat texts.length) := by
  rw [firstValue_of_source rfl, hsegments]
  change Except.ok (Value.ofNat (texts.map Value.str).length) = _
  rw [List.length_map]

end

private theorem firstValue_regexMatch {source : Variable ι} {text : String}
    (h : firstValue input source = .ok (.str text)) (pattern : String) (regex : Pattern.Regex) :
    firstValue input (.regexMatch source pattern regex) = .ok (.bool (regex.matchesText text)) := by
  rw [firstValue_of_source rfl, h]
  rfl

/-! ## Steps that match -/

/-- Whether a step of an expression admits a step of a path: a literal step admits itself, a
parameter what its pattern matches, and one without pattern everything. -/
def Admits (step text : String) : Prop :=
  match Parameter.read? step with
  | none => step = text
  | some { pattern := none, .. } => True
  | some { pattern := some pattern, .. } =>
    ∃ matcher, (Variable.identity Value.str).regexMatch? pattern = .ok matcher ∧
      matcher.valueOn text = .ok (.bool true)

section

variable {step text : String} {name : Option String}

theorem admits_literal_iff (h : Parameter.read? step = none) : Admits step text ↔ step = text := by
  rw [Admits, h]

theorem admits_parameter (h : Parameter.read? step = some ⟨name, none⟩) : Admits step text := by
  rw [Admits, h]
  trivial

theorem admits_pattern_iff {pattern : String}
    (h : Parameter.read? step = some ⟨name, some pattern⟩) :
    Admits step text ↔ ∃ regex, Pattern.compile? (Pattern.anchored pattern) = some regex ∧
      regex.matchesText text := by
  have hvalue : ∀ regex : Pattern.Regex,
      valueOn text (.regexMatch (.identity Value.str) pattern regex) =
        .ok (.bool (regex.matchesText text)) := fun regex => rfl
  rw [Admits, h]
  simp only [regexMatch?]
  cases Pattern.compile? (Pattern.anchored pattern) <;> simp [hvalue]

end

private theorem stepCondition?_holds {segments : Variable ι} {texts : List String}
    (hsegments : firstValue input segments = .ok (.list (texts.map .str))) {index : Nat}
    {step : String} {condition : Option (Condition ι)}
    (h : stepCondition? segments index step = .ok condition) :
    condition.toList.all (·.holdsOn input) ↔ Admits step (texts.getD index "") := by
  have hstep := firstValue_stepOf hsegments index
  rw [stepCondition?] at h
  cases hread : Parameter.read? step with
  | none =>
      simp only [hread, Except.ok.injEq] at h
      subst h
      rw [admits_literal_iff hread, Option.toList_some, Condition.all_singleton_iff, hstep,
        Except.ok.injEq, Value.str.injEq, eq_comm]
  | some parameter =>
      obtain ⟨name, pattern⟩ := parameter
      cases pattern with
      | none =>
          simp only [hread, Except.ok.injEq] at h
          subst h
          simpa using admits_parameter hread
      | some pattern =>
          simp only [hread, regexMatch?] at h
          rw [admits_pattern_iff hread]
          cases hregex : Pattern.compile? (Pattern.anchored pattern) with
          | none => simp [hregex, Except.map] at h
          | some regex =>
              simp only [hregex, Except.map, Except.ok.injEq] at h
              subst h
              rw [Option.toList_some, Condition.all_singleton_iff, firstValue_regexMatch hstep]
              simp

theorem stepConditions_cons_ok {segments : Variable ι} {step : String} {index : Nat}
    {steps : List (String × Nat)} {conditions : List (Condition ι)}
    (h : stepConditions segments ((step, index) :: steps) = .ok conditions) :
    ∃ condition others, stepCondition? segments index step = .ok condition ∧
      stepConditions segments steps = .ok others ∧ conditions = condition.toList ++ others := by
  rw [stepConditions] at h
  cases hfirst : stepCondition? segments index step with
  | error error => simp [hfirst, bind, Except.bind] at h
  | ok condition =>
      cases hrest : stepConditions segments steps with
      | error error => simp [hfirst, hrest, bind, Except.bind] at h
      | ok others =>
          simp only [hfirst, hrest, bind, Except.bind, pure, Except.pure, Except.ok.injEq] at h
          exact ⟨condition, others, rfl, rfl, h.symm⟩

private theorem stepConditions_hold {segments : Variable ι} {texts : List String}
    (hsegments : firstValue input segments = .ok (.list (texts.map .str)))
    {steps : List (String × Nat)} {conditions : List (Condition ι)}
    (h : stepConditions segments steps = .ok conditions) :
    conditions.all (·.holdsOn input) ↔ ∀ entry ∈ steps, Admits entry.1 (texts.getD entry.2 "") := by
  induction steps generalizing conditions with
  | nil =>
      cases h
      simp
  | cons entry steps ih =>
      obtain ⟨condition, others, hfirst, hrest, rfl⟩ := stepConditions_cons_ok h
      rw [List.forall_mem_cons, List.all_append, Bool.and_eq_true, ih hrest,
        stepCondition?_holds hsegments hfirst]

/-! ## Whole paths -/

def Leads (pattern texts : List String) : Prop :=
  ∃ front rest, texts = front ++ rest ∧ List.Forall₂ Admits pattern front

/-- Whether a path ends before an expression does and all further steps of the expression admit the
empty text. -/
def RunsOut (pattern texts : List String) : Prop :=
  ∃ front missing, pattern = front ++ missing ∧ missing ≠ [] ∧ List.Forall₂ Admits front texts ∧
    ∀ step ∈ missing, Admits step ""

/-- Whether each step of an expression admits the step of a path at its place, or the empty text if
there is none. -/
def AdmitsAll (pattern texts : List String) : Prop :=
  ∀ entry ∈ pattern.zipIdx, Admits entry.1 (texts.getD entry.2 "")

theorem admitsAll_cons (step : String) (pattern texts : List String) :
    AdmitsAll (step :: pattern) texts ↔
      Admits step (texts.headD "") ∧ AdmitsAll pattern texts.tail := by
  have hshift : ∀ (entry : String × Nat), Admits entry.1 (texts.getD (entry.2 + 1) "") ↔
      Admits entry.1 (texts.tail.getD entry.2 "") := by
    cases texts <;> simp
  rw [AdmitsAll, AdmitsAll, List.zipIdx_cons, List.forall_mem_cons, List.zipIdx_succ,
    List.forall_mem_map]
  simp only [hshift]
  cases texts <;> simp

private theorem admitsAll_nil_iff (pattern : List String) :
    AdmitsAll pattern [] ↔ ∀ step ∈ pattern, Admits step "" := by
  induction pattern with
  | nil => simp [AdmitsAll]
  | cons step pattern ih => rw [admitsAll_cons, List.forall_mem_cons, List.tail_nil, ih]; rfl

theorem leads_cons (step text : String) (pattern texts : List String) :
    Leads (step :: pattern) (text :: texts) ↔ Admits step text ∧ Leads pattern texts := by
  constructor
  · rintro ⟨front, rest, hfront, hadmits⟩
    cases hadmits with
    | cons hfirst hrest =>
        injection hfront with htext htexts
        subst htext
        exact ⟨hfirst, _, rest, htexts, hrest⟩
  · rintro ⟨hfirst, front, rest, rfl, hrest⟩
    exact ⟨text :: front, rest, rfl, .cons hfirst hrest⟩

theorem Leads.length_le {pattern texts : List String} (h : Leads pattern texts) :
    pattern.length ≤ texts.length := by
  obtain ⟨front, rest, rfl, hadmits⟩ := h
  rw [hadmits.length_eq, List.length_append]
  omega

theorem runsOut_cons (step text : String) (pattern texts : List String) :
    RunsOut (step :: pattern) (text :: texts) ↔ Admits step text ∧ RunsOut pattern texts := by
  constructor
  · rintro ⟨front, missing, hpattern, hmissing, hadmits, hempty⟩
    cases hadmits with
    | cons hfirst hrest =>
        injection hpattern with hstep hpattern
        subst hstep
        exact ⟨hfirst, _, missing, hpattern, hmissing, hrest, hempty⟩
  · rintro ⟨hfirst, front, missing, rfl, hmissing, hrest, hempty⟩
    exact ⟨step :: front, missing, rfl, hmissing, .cons hfirst hrest, hempty⟩

private theorem leads_or_runsOut_nil (pattern : List String) :
    Leads pattern [] ∨ RunsOut pattern [] ↔ ∀ step ∈ pattern, Admits step "" := by
  constructor
  · rintro (⟨front, rest, hfront, hadmits⟩ | ⟨front, missing, rfl, -, hadmits, hempty⟩)
    · obtain ⟨rfl, -⟩ := List.append_eq_nil_iff.mp hfront.symm
      cases hadmits
      simp
    · cases hadmits
      exact hempty
  · intro hempty
    by_cases hpattern : pattern = []
    · exact .inl ⟨[], [], rfl, by rw [hpattern]; exact .nil⟩
    · exact .inr ⟨[], pattern, rfl, hpattern, .nil, hempty⟩

private theorem admitsAll_iff (pattern texts : List String) :
    AdmitsAll pattern texts ↔ Leads pattern texts ∨ RunsOut pattern texts := by
  induction pattern generalizing texts with
  | nil => simp [AdmitsAll, Leads]
  | cons step pattern ih =>
      cases texts with
      | nil => rw [admitsAll_nil_iff, leads_or_runsOut_nil]
      | cons text texts =>
          rw [admitsAll_cons, leads_cons, runsOut_cons, ih, ← and_or_left]
          rfl

theorem admitsAll_and_length_iff (pattern texts : List String) :
    AdmitsAll pattern texts ∧ texts.length = pattern.length ↔ List.Forall₂ Admits pattern texts := by
  induction pattern generalizing texts with
  | nil => simp [AdmitsAll]
  | cons step pattern ih =>
      cases texts with
      | nil => simp
      | cons text texts =>
          rw [List.forall₂_cons, ← ih, admitsAll_cons, and_assoc]
          simp

/-! ## Expressions -/

def IsParametrized (source : String) : Prop :=
  ∃ step ∈ parsePath source, (Parameter.read? step).isSome

namespace PathExpression

variable {path : Variable ι} {source : String} {exact : Bool} {expression : PathExpression ι}

theorem conditions_of_parametrized (h : new path source exact = .ok expression)
    (hsource : IsParametrized source) :
    ∃ conditions, stepConditions (segmentsOf path) (parsePath source).zipIdx = .ok conditions ∧
      expression.conditions = conditions ++
        if exact then [⟨.size (segmentsOf path), .ofNat (parsePath source).length⟩] else [] := by
  rw [new, if_pos (by simpa [IsParametrized] using hsource)] at h
  cases hconditions : stepConditions (segmentsOf path) (parsePath source).zipIdx with
  | error error => simp [hconditions, bind, Except.bind] at h
  | ok conditions =>
      simp only [hconditions, bind, Except.bind, pure, Except.pure, Except.ok.injEq] at h
      subst h
      exact ⟨conditions, rfl, rfl⟩

theorem conditions_of_plain (h : new path source exact = .ok expression)
    (hsource : ¬ IsParametrized source) :
    expression.conditions = [plainCondition path (parsePath source) exact] := by
  rw [new, if_neg (by simpa [IsParametrized] using hsource)] at h
  cases h
  rfl

theorem read?_of_plain (hsource : ¬ IsParametrized source) :
    ∀ step ∈ parsePath source, Parameter.read? step = none := by
  simpa [IsParametrized] using hsource

end PathExpression

theorem leads_literal_iff {pattern : List String}
    (h : ∀ step ∈ pattern, Parameter.read? step = none) (texts : List String) :
    Leads pattern texts ↔ pattern <+: texts := by
  induction pattern generalizing texts with
  | nil => simp [Leads]
  | cons step pattern ih =>
      rw [List.forall_mem_cons] at h
      cases texts with
      | nil => simp [Leads]
      | cons text texts =>
          rw [leads_cons, admits_literal_iff h.1, ih h.2, List.cons_prefix_cons]

/-! ## Different variables -/

private theorem toString_inj {index other : Nat} (h : toString index = toString other) :
    index = other := by
  rw [Nat.toString_eq_ofList_toDigits, Nat.toString_eq_ofList_toDigits, String.ofList_inj] at h
  rw [← Nat.ofDigitChars_ten_toDigits (n := index), h, Nat.ofDigitChars_ten_toDigits]

private theorem same_stepOf_iff (segments : Variable ι) (index other : Nat) :
    (stepOf segments index).same (stepOf segments other) ↔ index = other := by
  refine ⟨fun h => ?_, fun h => h ▸ same_refl _⟩
  simp only [stepOf, same, Bool.and_eq_true, beq_iff_eq, ← String.toList_inj, String.toList_append,
    List.append_cancel_right_eq, List.append_cancel_left_eq] at h
  exact toString_inj (String.toList_inj.mp h.1)

def AsksForStep (segments : Variable ι) (index : Nat) (subject : Variable ι) : Prop :=
  subject = stepOf segments index ∨
    ∃ pattern regex, subject = .regexMatch (stepOf segments index) pattern regex

theorem AsksForStep.ne {segments subject other : Variable ι} {index place : Nat}
    (h : AsksForStep segments index subject) (hother : AsksForStep segments place other)
    (hplace : index ≠ place) : subject.same other = false := by
  have hsteps : (stepOf segments index).same (stepOf segments place) = false := by
    rw [← Bool.not_eq_true, same_stepOf_iff]
    exact hplace
  rcases h with rfl | ⟨pattern, regex, rfl⟩ <;> rcases hother with rfl | ⟨text, own, rfl⟩
  · exact hsteps
  · rfl
  · rfl
  · rw [same, hsteps, Bool.and_false]

theorem AsksForStep.ne_size {segments subject : Variable ι} {index : Nat}
    (h : AsksForStep segments index subject) : subject.same (.size segments) = false := by
  rcases h with rfl | ⟨pattern, regex, rfl⟩ <;> rfl

theorem stepCondition?_asks {segments : Variable ι} {index : Nat} {step : String}
    {condition : Option (Condition ι)} (h : stepCondition? segments index step = .ok condition) :
    ∀ own ∈ condition, AsksForStep segments index own.subject := by
  rw [stepCondition?] at h
  split at h
  · next pattern _ =>
    rw [regexMatch?] at h
    split at h
    · cases h
      simp [AsksForStep]
    · cases h
  · cases h
    simp
  · cases h
    simp [AsksForStep]

theorem stepConditions_ask {segments : Variable ι} {steps : List (String × Nat)}
    {conditions : List (Condition ι)} (h : stepConditions segments steps = .ok conditions) :
    ∀ condition ∈ conditions, ∃ entry ∈ steps, AsksForStep segments entry.2 condition.subject := by
  induction steps generalizing conditions with
  | nil =>
      cases h
      simp
  | cons entry steps ih =>
      obtain ⟨first, others, hfirst, hrest, rfl⟩ := stepConditions_cons_ok h
      intro condition hcondition
      rcases List.mem_append.mp hcondition with hown | hother
      · exact ⟨entry, List.mem_cons_self, stepCondition?_asks hfirst condition (by simpa using hown)⟩
      · obtain ⟨other, hmem, hasks⟩ := ih hrest condition hother
        exact ⟨other, List.mem_cons_of_mem _ hmem, hasks⟩

private theorem separate_stepConditions {segments : Variable ι} {steps : List (String × Nat)}
    {conditions : List (Condition ι)} (h : stepConditions segments steps = .ok conditions)
    (hplaces : steps.Pairwise fun entry other => entry.2 ≠ other.2) :
    Separate (conditions.map (·.subject)) := by
  induction steps generalizing conditions with
  | nil =>
      cases h
      exact .nil
  | cons entry steps ih =>
      obtain ⟨first, others, hfirst, hrest, rfl⟩ := stepConditions_cons_ok h
      rw [List.pairwise_cons] at hplaces
      rw [Separate, List.pairwise_map, List.pairwise_append]
      refine ⟨by cases first <;> simp, List.pairwise_map.mp (ih hrest hplaces.2), ?_⟩
      intro own hown condition hcondition
      obtain ⟨other, hmem, hasks⟩ := stepConditions_ask hrest condition hcondition
      exact (stepCondition?_asks hfirst own (by simpa using hown)).ne hasks (hplaces.1 other hmem)

namespace PathExpression

variable {path : Variable ι} {source : String} {exact : Bool} {expression : PathExpression ι}

private theorem separate_conditions (h : new path source exact = .ok expression) :
    Separate (expression.conditions.map (·.subject)) := by
  by_cases hsource : IsParametrized source
  · obtain ⟨conditions, hsteps, hconditions⟩ := conditions_of_parametrized h hsource
    have hplaces : (parsePath source).zipIdx.Pairwise fun entry other => entry.2 ≠ other.2 := by
      rw [← List.pairwise_map (f := Prod.snd) (R := (· ≠ ·)), List.zipIdx_map_snd]
      exact List.nodup_range'
    rw [hconditions, Separate, List.pairwise_map, List.pairwise_append]
    refine ⟨List.pairwise_map.mp (separate_stepConditions hsteps hplaces), ?_, ?_⟩
    · split <;> simp
    · intro condition hcondition size hsize
      obtain ⟨entry, -, hasks⟩ := stepConditions_ask hsteps condition hcondition
      split at hsize
      · rw [List.mem_singleton.mp hsize]
        exact hasks.ne_size
      · cases hsize
  · rw [conditions_of_plain h hsource]
    exact List.pairwise_singleton _ _

private theorem addRule_conditions (h : new path source exact = .ok expression)
    (builder : DeciderBuilder ι τ) (item : τ) :
    (builder.addRule expression.conditions item).1 = .ok () := by
  rw [DeciderBuilder.addRule, Rule.of_eq (separate_conditions h)]

/-! ## Exact expressions -/

theorem holds_of_parametrized (h : new path source exact = .ok expression)
    (hsource : IsParametrized source) {text : String}
    (hpath : firstValue input path = .ok (.str text)) :
    expression.conditions.all (·.holdsOn input) ↔
      AdmitsAll (parsePath source) (parsePath text) ∧
        (exact → Value.ofNat (parsePath text).length = .ofNat (parsePath source).length) := by
  have hsegments := firstValue_segmentsOf hpath
  obtain ⟨conditions, hsteps, hconditions⟩ := conditions_of_parametrized h hsource
  rw [hconditions, List.all_append, Bool.and_eq_true, stepConditions_hold hsegments hsteps]
  refine and_congr Iff.rfl ?_
  cases exact with
  | true => simp [Condition.holdsOn_iff_firstValue, firstValue_size hsegments]
  | false => simp

private theorem plain_exact_holds (h : new path source true = .ok expression)
    (hsource : ¬ IsParametrized source) {text : String}
    (hpath : firstValue input path = .ok (.str text)) :
    expression.conditions.all (·.holdsOn input) ↔ text = canonicalPath (parsePath source) := by
  rw [conditions_of_plain h hsource, Condition.all_singleton_iff]
  simp [plainCondition, hpath]

private theorem plain_inexact_holds (h : new path source false = .ok expression)
    (hsource : ¬ IsParametrized source) {text : String}
    (hpath : firstValue input path = .ok (.str text)) :
    expression.conditions.all (·.holdsOn input) ↔
      (canonicalPath (parsePath source)).toList <+: text.toList := by
  rw [conditions_of_plain h hsource, Condition.all_singleton_iff, plainCondition,
    if_neg (by simp), Condition.onTest, firstValue_of_source rfl, hpath]
  change Except.ok (Value.bool (startsWith _ (.str text))) = _ ↔ _
  simp [startsWith]

/-- An expression with parameters that is exact holds for the paths that have exactly as many steps,
each admitted by the step at its place; one without parameters holds for the path of just its steps.
A source has at most as many characters as the greatest word says, as every text in memory has. -/
theorem exact_conditions (path : Variable ι) {source : String}
    (hsize : source.length ≤ Int64.maxValue.toInt) :
    (∀ expression, new path source true = .ok expression → ∀ input,
      (IsParametrized source → ∀ text, firstValue input path = .ok (.str text) →
        (expression.conditions.all (·.holdsOn input) ↔
          List.Forall₂ Admits (parsePath source) (parsePath text))) ∧
      (¬ IsParametrized source → ∀ steps, (∀ step ∈ steps, IsStep step) →
        firstValue input path = .ok (.str (canonicalPath steps)) →
        (expression.conditions.all (·.holdsOn input) ↔ parsePath source = steps))) ∧
    ∀ exact expression, new path source exact = .ok expression →
      ∀ (builder : DeciderBuilder ι τ) (item : τ),
        (builder.addRule expression.conditions item).1 = .ok () := by
  have hlength : (parsePath source).length < Int64.maxValue.toInt := by
    have hsteps := length_parsePath_le source
    rw [greatestWord_toInt] at hsize ⊢
    omega
  refine ⟨fun expression h input => ⟨?_, ?_⟩, fun exact expression h builder item =>
    addRule_conditions h builder item⟩
  · intro hsource text hpath
    rw [holds_of_parametrized h hsource hpath, ← admitsAll_and_length_iff,
      Value.ofNat_eq_iff hlength]
    simp
  · intro hsource steps hsteps hpath
    rw [plain_exact_holds h hsource hpath,
      canonicalPath_inj hsteps (fun step hstep => isStep_of_mem_parsePath hstep), eq_comm]

def orderRoute : String := "/orders/:state(new|old)/:number"

theorem exact_conditions_orderRoute :
    orderRoute.length ≤ Int64.maxValue.toInt ∧ IsParametrized orderRoute ∧ ¬ IsParametrized "orders/all" ∧
    ∃ byState all, new (.identity .str) orderRoute true = .ok byState ∧
      new (.identity .str) "orders/all" true = .ok all ∧
      byState.conditions.all (·.holdsOn "//orders/new/7/") ∧
      ¬ byState.conditions.all (·.holdsOn "/orders/newer/7") ∧
      ¬ byState.conditions.all (·.holdsOn "/orders/new") ∧
      all.conditions.all (·.holdsOn "/orders/all") ∧
      ((DeciderBuilder.new .unlimited).addRule byState.conditions "orders").1 = .ok () := by
  have hsize : orderRoute.length ≤ Int64.maxValue.toInt := by decide +kernel
  have hsteps : parsePath orderRoute = ["orders", ":state(new|old)", ":number"] := by
    decide +kernel
  have hstate : Parameter.read? ":state(new|old)" = some ⟨some "state", some "new|old"⟩ := by
    decide +kernel
  have hparametrized : IsParametrized orderRoute :=
    ⟨":state(new|old)", by rw [hsteps]; simp, by rw [hstate]; rfl⟩
  have hplain : ¬ IsParametrized "orders/all" := by
    have hnone : ∀ step ∈ parsePath "orders/all", (Parameter.read? step).isSome = false := by
      decide +kernel
    rintro ⟨step, hstep, hsome⟩
    rw [hnone step hstep] at hsome
    cases hsome
  obtain ⟨regex, hregex, hmatches⟩ : ∃ regex,
      Pattern.compile? (Pattern.anchored "new|old") = some regex ∧
      (regex.matchesText "new" && !regex.matchesText "newer") = true :=
    (Option.any_eq_true _ _).mp (by decide +kernel)
  rw [Bool.and_eq_true, Bool.not_eq_true'] at hmatches
  obtain ⟨byState, hbyState, -⟩ := exists_of_any
    (by decide +kernel : (new (.identity .str) orderRoute true).toOption.any fun _ => true)
  obtain ⟨all, hall, -⟩ := exists_of_any
    (by decide +kernel : (new (.identity .str) "orders/all" true).toOption.any fun _ => true)
  have hexact := @exact_conditions String String (.identity .str) orderRoute hsize
  have hall' := @exact_conditions String String (.identity .str) "orders/all" (by decide +kernel)
  have hon := fun text => (hexact.1 byState hbyState text).1 hparametrized text rfl
  refine ⟨hsize, hparametrized, hplain, byState, all, hbyState, hall, ?_, ?_, ?_, ?_,
    hexact.2 true byState hbyState _ _⟩
  · rw [hon, hsteps, show parsePath "//orders/new/7/" = ["orders", "new", "7"] by decide +kernel]
    have horders : Parameter.read? "orders" = none := by decide +kernel
    have hnumber : Parameter.read? ":number" = some ⟨some "number", none⟩ := by decide +kernel
    exact .cons ((admits_literal_iff horders).mpr rfl)
      (.cons ((admits_pattern_iff hstate).mpr ⟨regex, hregex, hmatches.1⟩)
        (.cons (admits_parameter hnumber) .nil))
  · rw [hon, hsteps, show parsePath "/orders/newer/7" = ["orders", "newer", "7"] by decide +kernel]
    rintro (_ | ⟨-, _ | ⟨hnewer, -⟩⟩)
    obtain ⟨own, hown, htrue⟩ := (admits_pattern_iff hstate).mp hnewer
    rw [hregex, Option.some.injEq] at hown
    rw [← hown, hmatches.2] at htrue
    cases htrue
  · rw [hon, hsteps, show parsePath "/orders/new" = ["orders", "new"] by decide +kernel]
    intro h
    simpa using h.length_eq
  · have hsteps : ∀ step ∈ ["orders", "all"], IsStep step := by
      simp [IsStep]
    exact ((hall'.1 all hall "/orders/all").2 hplain _ hsteps rfl).mpr (by decide +kernel)

/-! ## Inexact expressions -/

/-- An expression that is not exact holds for the paths whose steps it leads, and beyond them: one
with parameters for shorter paths, where the empty text is admitted in place of every missing step,
and one without parameters where its last step is only a part of the step of the path. -/
theorem inexact_conditions (h : new path source false = .ok expression) {steps : List String}
    (hsteps : ∀ step ∈ steps, IsStep step)
    (hpath : firstValue input path = .ok (.str (canonicalPath steps))) :
    expression.conditions.all (·.holdsOn input) ↔
      Leads (parsePath source) steps ∨
      (IsParametrized source ∧ RunsOut (parsePath source) steps) ∨
      (¬ IsParametrized source ∧ CutsStep (parsePath source) steps) := by
  by_cases hsource : IsParametrized source
  · rw [holds_of_parametrized h hsource hpath, parsePath_canonicalPath hsteps, admitsAll_iff]
    simp [hsource]
  · rw [plain_inexact_holds h hsource hpath, canonicalPath_prefix_iff
      (fun step hstep => isStep_of_mem_parsePath hstep) hsteps,
      leads_literal_iff (read?_of_plain hsource)]
    simp [hsource]

theorem inexact_conditions_numbers :
    (∀ step ∈ ["orders", "7", "lines"], IsStep step) ∧
    ∃ expression, new (.identity .str) "orders/:number" false = .ok expression ∧
      expression.conditions.all (·.holdsOn (canonicalPath ["orders", "7", "lines"])) ∧
      ¬ expression.conditions.all (·.holdsOn (canonicalPath ["users", "7"])) := by
  have hpattern : parsePath "orders/:number" = ["orders", ":number"] := by decide +kernel
  have horders : Parameter.read? "orders" = none := by decide +kernel
  have hnumber : Parameter.read? ":number" = some ⟨some "number", none⟩ := by decide +kernel
  have hparametrized : IsParametrized "orders/:number" :=
    ⟨":number", by rw [hpattern]; simp, by rw [hnumber]; rfl⟩
  have hlines : ∀ step ∈ ["orders", "7", "lines"], IsStep step := by simp [IsStep]
  have husers : ∀ step ∈ ["users", "7"], IsStep step := by simp [IsStep]
  obtain ⟨expression, hexpression, -⟩ := exists_of_any
    (by decide +kernel : (new (.identity .str) "orders/:number" false).toOption.any fun _ => true)
  refine ⟨hlines, expression, hexpression, ?_, ?_⟩
  · refine (inexact_conditions hexpression hlines rfl).mpr
      (.inl ⟨["orders", "7"], ["lines"], rfl, ?_⟩)
    rw [hpattern]
    exact .cons ((admits_literal_iff horders).mpr rfl) (.cons (admits_parameter hnumber) .nil)
  · have hpath : firstValue (canonicalPath ["users", "7"]) (.identity .str) =
        .ok (.str (canonicalPath ["users", "7"])) := rfl
    rw [inexact_conditions hexpression husers hpath, hpattern]
    simp [leads_cons, runsOut_cons, admits_literal_iff horders, hparametrized]

/-- Expressions that are not exact hold for paths that they do not lead: for one with a longer step,
and for one that has no step in the place of a parameter. -/
theorem inexact_conditions_beyond_leads :
    (∃ expression, new (.identity .str) "/orders" false = .ok expression ∧
      expression.conditions.all (·.holdsOn (canonicalPath ["orders-old"])) ∧
      ¬ Leads (parsePath "/orders") ["orders-old"]) ∧
    ∃ expression, new (.identity .str) "/orders/:number" false = .ok expression ∧
      expression.conditions.all (·.holdsOn (canonicalPath ["orders"])) ∧
      ¬ Leads (parsePath "/orders/:number") ["orders"] := by
  obtain ⟨plain, hplain, hlonger⟩ := exists_of_any
    (by decide +kernel : (new (.identity .str) "/orders" false).toOption.any
      (·.conditions.all (·.holdsOn (canonicalPath ["orders-old"]))))
  obtain ⟨byNumber, hbyNumber, hshorter⟩ := exists_of_any
    (by decide +kernel : (new (.identity .str) "/orders/:number" false).toOption.any
      (·.conditions.all (·.holdsOn (canonicalPath ["orders"]))))
  refine ⟨⟨plain, hplain, hlonger, ?_⟩, byNumber, hbyNumber, hshorter, ?_⟩
  · have hread : ∀ step ∈ parsePath "/orders", Parameter.read? step = none := by decide +kernel
    rw [leads_literal_iff hread]
    decide +kernel
  · intro h
    have hlength := h.length_le
    revert hlength
    decide +kernel

end PathExpression

end Decision

end Runbook
