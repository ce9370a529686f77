import Runbook.Execution.Config

/-!
# Plan files

A plan file is a document that describes one operation: its name, the settings of its executor, a
bound on the nodes of its decision tree, and its rules.  A rule has a name, the field values that a
document must have, and a sequence of steps.  A step assigns fields, appends to an array, waits for
a key, or lets branches run side by side.
-/

namespace Runbook.Plan

open Json

inductive FileStep where
  | set (key : Option String) (fields : List (String × Json))
  | append (key : Option String) (field : String) (value : Json)
  | expect (key : String)
  | par (branches : List (List FileStep))

structure RuleSpec where
  name : Option String
  conditions : List (String × Json)
  steps : List FileStep

structure PlanFile where
  name : String
  executor : ExecutorConfig
  maxNodes : Option Nat
  rules : List RuleSpec

/-! ## Steps

A step is recognised by its fields.  The kinds of steps are tried in turn, and the first one whose
own fields are all there, each once and of the right shape, is taken; other fields are passed over.
-/

def single? (fields : List (String × Json)) (name : String) : Option (Option Json) :=
  match fields.filter (·.1 = name) with
  | [] => some none
  | [(_, value)] => some (some value)
  | _ => none

def required? (fields : List (String × Json)) (name : String) : Option Json :=
  (single? fields name).join

def text? : Json → Option String
  | .string text => some text
  | _ => none

def stepKey? (fields : List (String × Json)) : Option (Option String) := do
  match ← single? fields "key" with
  | none => some none
  | some .null => some none
  | some (.string key) => some (some key)
  | _ => none

def setStep? (fields : List (String × Json)) : Option FileStep := do
  let key ← stepKey? fields
  match ← required? fields "set" with
  | .object assignments =>
    match (Json.object assignments).normalize with
    | .object sorted => return .set key sorted
    | _ => none
  | _ => none

def appendTarget? : Json → Option (String × Json)
  | .object fields => do
    let field ← text? (← required? fields "field")
    let value ← required? fields "value"
    return (field, value.normalize)
  | .array [.string field, value] => some (field, value.normalize)
  | _ => none

def appendStep? (fields : List (String × Json)) : Option FileStep := do
  let key ← stepKey? fields
  let (field, value) ← appendTarget? (← required? fields "append")
  return .append key field value

def expectStep? (fields : List (String × Json)) : Option FileStep := do
  let key ← text? (← required? fields "expect")
  return .expect key

def items? : Json → Option (List Json)
  | .array items => some items
  | _ => none

/-- Reads a step, of which the fuel bounds the nesting of branches. -/
def step? : Nat → Json → Option FileStep
  | 0, _ => none
  | fuel + 1, .object fields =>
    setStep? fields <|> appendStep? fields <|> expectStep? fields <|> do
      let branches ← items? (← required? fields "par")
      let branches ← branches.mapM fun branch => do
        let steps ← items? branch
        steps.mapM (step? fuel)
      return .par branches
  | _, _ => none

/-! ## Rules and files -/

def readStep? : Reader FileStep := fun depth written => do
  let document ← written.meaning? depth
  step? (depthLimit + 1) document

def readRule? : Reader RuleSpec := fun depth written => do
  match ← written.record? ["name", "when", "sequence"] depth with
  | [name, conditions, some steps] =>
    let name ← Written.optional none (Written.nullable Written.string?) name
    let conditions ← Written.optional [] (Written.map? (depth - 1)) conditions
    let steps ← Written.list? readStep? (depth - 1) steps
    return ⟨name, conditions, steps⟩
  | _ => none

def readFile? : Reader PlanFile := fun depth written => do
  match ← written.record? ["name", "executor", "max_nodes", "rules"] depth with
  | [name, executor, maxNodes, some rules] =>
    let name ← Written.optional "plan" Written.string? name
    let executor ← Written.optional .default (ExecutorConfig.read? (depth - 1)) executor
    let maxNodes ← Written.optional none (Written.nullable Written.natural?) maxNodes
    let rules ← Written.list? readRule? (depth - 1) rules
    return ⟨name, executor, maxNodes, rules⟩
  | _ => none

def PlanFile.parse? (text : String) : Option PlanFile :=
  (Written.ofText? text).bind (readFile? depthLimit)

end Runbook.Plan
