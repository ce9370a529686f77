import Runbook.Firsts
import Runbook.Variable

/-!
# Rules

A rule selects an item when all its conditions hold; a condition asks for one value of one variable.
A rule keeps each condition once and may not ask for two values of one variable.
-/

namespace Runbook.Decision

structure Contradiction where
  subject : String
  values : List Value

def Contradiction.message (contradiction : Contradiction) : String :=
  "variable " ++ contradiction.subject ++ " is expected to be both " ++
    " and ".intercalate (contradiction.values.map Value.display)

inductive DecisionError where
  | contradictingConditions (contradictions : List Contradiction)
  | evaluation (error : VariableError)
  | assumptionViolated (subject : String) (source : VariableError)
  | treeTooLarge (limit : Nat)
  | output (message : String)
  | pathMismatch (path expression : String)

def describeContradictions (contradictions : List Contradiction) : String :=
  let subject := if 1 < contradictions.length then "some variables" else "a variable"
  "Contradicting conditions are provided for " ++ subject ++ ": " ++
    "; ".intercalate (contradictions.map Contradiction.message)

def DecisionError.message : DecisionError → String
  | .contradictingConditions contradictions => describeContradictions contradictions
  | .evaluation error => error.message
  | .assumptionViolated subject source =>
    "cannot evaluate " ++ subject ++ " from assumed values: " ++ source.message
  | .treeTooLarge limit => "decision tree exceeds " ++ toString limit ++ " nodes"
  | .output message => "decision output failed: " ++ message
  | .pathMismatch path expression => "path " ++ path ++ " doesn't match " ++ expression

structure Condition (ι : Type) where
  subject : Variable ι
  value : Value

structure Rule (ι τ : Type) where
  conditions : List (Condition ι)
  item : τ

variable {ι τ : Type}

namespace Condition

def display (condition : Condition ι) : String :=
  condition.subject.display ++ " == " ++ condition.value.display

def onTest (subject : Variable ι) (label : String) (test : Value → Bool) (expected : Bool)
    (traced : Bool) : Condition ι :=
  ⟨.predicate subject label test traced, .bool expected⟩

end Condition

/-! ## Making rules -/

def askedValue? (conditions : List (Condition ι)) (subject : Variable ι) : Option Value :=
  (conditions.find? (·.subject.same subject)).map (·.value)

abbrev Conflicts (ι : Type) := List (Variable ι × List Value)

def noteConflict (subject : Variable ι) (first value : Value) : Conflicts ι → Conflicts ι
  | [] => [(subject, [first, value])]
  | (other, values) :: rest =>
    if other.same subject then
      (other, appendNew values [value]) :: rest
    else (other, values) :: noteConflict subject first value rest

def takeCondition (collected : List (Condition ι) × Conflicts ι) (condition : Condition ι) :
    List (Condition ι) × Conflicts ι :=
  match askedValue? collected.1 condition.subject with
  | none => (collected.1 ++ [condition], collected.2)
  | some value =>
    if value = condition.value then collected
    else (collected.1, noteConflict condition.subject value condition.value collected.2)

def Rule.of (conditions : List (Condition ι)) (item : τ) : Except DecisionError (Rule ι τ) :=
  match conditions.foldl takeCondition ([], []) with
  | (conditions, []) => .ok ⟨conditions, item⟩
  | (_, conflicts) =>
    .error (.contradictingConditions
      (conflicts.map fun (subject, values) => ⟨subject.display, values⟩))

namespace Rule

def asks? (rule : Rule ι τ) (subject : Variable ι) : Option Value :=
  askedValue? rule.conditions subject

def without (rule : Rule ι τ) (subject : Variable ι) : Rule ι τ :=
  { rule with conditions := rule.conditions.eraseP (·.subject.same subject) }

end Rule

end Runbook.Decision
