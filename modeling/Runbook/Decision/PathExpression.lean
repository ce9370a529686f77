import Runbook.Decision.Context
import Runbook.Decision.Rule
import Runbook.Text.Split

/-!
# Path expressions

A path expression such as `/orders/:orderId([0-9a-z]+)` becomes conditions on the variable that
holds a path.  A step that begins with a colon is a parameter, perhaps with a name and a pattern;
any other step stands for itself.  An exact expression also fixes the number of steps.
-/

namespace Runbook.Decision

variable {ι : Type}

def parsePath (path : String) : List String := (Text.split '/' path).filter (· ≠ "")

structure Parameter where
  name : Option String
  pattern : Option String
  deriving DecidableEq, Repr

/-- Reads a parameter step: a colon, then everything up to the first opening parenthesis as the
name, then nothing or a pattern in parentheses that end the step; a pattern lies in one line. -/
def Parameter.read? (step : String) : Option Parameter :=
  match step.toList with
  | ':' :: rest =>
    let name := rest.takeWhile (· ≠ '(')
    let name := if name.isEmpty then none else some (String.ofList name)
    match rest.dropWhile (· ≠ '(') with
    | [] => some ⟨name, none⟩
    | _ :: inner =>
      if inner.getLast? = some ')' && !inner.dropLast.contains '\n' then
        some ⟨name, some (String.ofList inner.dropLast)⟩
      else none
  | _ => none

/-! ## Variables of a path -/

def segmentsOf (path : Variable ι) : Variable ι :=
  let name := "path parsed from " ++ path.display
  .derived name [path] (fun values =>
    match values.headD .null with
    | .str text => .ok (.list ((parsePath text).map .str))
    | .null => .ok (.list [])
    | other => .error (Variable.mismatch name "string" other)) false

/-- One step of a path, which is empty if there are fewer. -/
def stepOf (segments : Variable ι) (index : Nat) : Variable ι :=
  .derived ("step " ++ toString index ++ " of " ++ segments.display) [segments] (fun values =>
    match (values.headD .null).list? with
    | some steps => .ok (steps.getD index (.str ""))
    | none => .ok (.str "")) false

/-! ## Expressions -/

structure PathExpression (ι : Type) where
  path : Variable ι
  segments : Variable ι
  source : String
  exact : Bool
  conditions : List (Condition ι)
  parameters : List (Nat × String)

namespace PathExpression

def stepCondition? (segments : Variable ι) (index : Nat) (step : String) :
    Except VariableError (Option (Condition ι)) :=
  match Parameter.read? step with
  | some { pattern := some pattern, .. } =>
    ((stepOf segments index).regexMatch? pattern).map fun matcher => some ⟨matcher, .bool true⟩
  | some { pattern := none, .. } => .ok none
  | none => .ok (some ⟨stepOf segments index, .str step⟩)

def stepConditions (segments : Variable ι) :
    List (String × Nat) → Except VariableError (List (Condition ι))
  | [] => .ok []
  | (step, index) :: steps => do
    let condition ← stepCondition? segments index step
    let conditions ← stepConditions segments steps
    return condition.toList ++ conditions

def namedParameters (steps : List (String × Nat)) : List (Nat × String) :=
  steps.filterMap fun (step, index) =>
    match Parameter.read? step with
    | some { name := some name, .. } => some (index, name)
    | _ => none

def canonicalPath (steps : List String) : String := "/" ++ "/".intercalate steps

def startsWith (start : String) : Value → Bool
  | .str text => start.toList.isPrefixOf text.toList
  | _ => false

def plainCondition (path : Variable ι) (steps : List String) (exact : Bool) : Condition ι :=
  let canonical := canonicalPath steps
  if exact then ⟨path, .str canonical⟩
  else .onTest path ("starts_with " ++ canonical) (startsWith canonical) true false

def new (path : Variable ι) (source : String) (exact : Bool) :
    Except VariableError (PathExpression ι) := do
  let segments := segmentsOf path
  let steps := parsePath source
  if steps.any fun step => (Parameter.read? step).isSome then
    let conditions ← stepConditions segments steps.zipIdx
    let countCondition : List (Condition ι) :=
      if exact then [⟨.size segments, .ofNat steps.length⟩] else []
    return ⟨path, segments, source, exact, conditions ++ countCondition,
      namedParameters steps.zipIdx⟩
  else
    return ⟨path, segments, source, exact, [plainCondition path steps exact], []⟩

def parameterNames (expression : PathExpression ι) : List String :=
  expression.parameters.map (·.2)

def display (expression : PathExpression ι) : String :=
  (if expression.exact then "exact" else "inexact") ++ " path expression \"" ++ expression.source ++
    "\" for path from " ++ expression.path.display

def parameterValues? (steps : List Value) :
    List (Nat × String) → Option (List (String × String))
  | [] => some []
  | (index, name) :: parameters => do
    let step ← steps[index]?
    let text ← step.str?
    let others ← parameterValues? steps parameters
    return (name, text) :: others

def lift (run : Live ι α) : EStateM DecisionError (Context ι) α := fun context =>
  match run context with
  | .ok value context => .ok value context
  | .error error context => .error (.evaluation error) context

def extractParameters (expression : PathExpression ι) :
    EStateM DecisionError (Context ι) (List (String × String)) := do
  let segments ← lift (Live.get expression.segments)
  match parameterValues? (segments.list?.getD []) expression.parameters with
  | some values => return values
  | none =>
    let path ← lift (Live.get expression.path)
    throw (.pathMismatch path.display expression.display)

end PathExpression

end Runbook.Decision
