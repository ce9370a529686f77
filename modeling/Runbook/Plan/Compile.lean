import Runbook.Plan.Document
import Runbook.Plan.File
import Runbook.Plan.Registry

/-!
# Compiling plan files

The rules of a plan file become rules of a decider: their conditions read fields of the document,
and their items are labels, for the matcher, or patches, for the plan.
-/

namespace Runbook.Plan

open Runbook.Decision Runbook.Order

/-! ## Steps -/

def stepName (label : String) (position : Nat) (key : Option String) : String :=
  key.getD (label ++ " step " ++ toString position)

def stageStep (key : Option String) (stage : Stage Json) : Step (Stage Json) :=
  match key with
  | some key => .addKeyed (.text key) stage
  | none => .add stage

mutual

/-- Compiles a step of the rule with the given number and label.  `position` is the number of steps
before it, inner ones included, and is counted on. -/
def compileStep (rule : Nat) (label : String) (position : Nat) :
    FileStep → Step (Stage Json) × Nat
  | .set key fields =>
    let name := stepName label (position + 1) key
    (stageStep key (setStage ⟨rule, position + 1⟩ name fields), position + 1)
  | .append key field value =>
    let name := stepName label (position + 1) key
    (stageStep key (appendStage ⟨rule, position + 1⟩ name field value), position + 1)
  | .expect key => (.expect (.text key), position + 1)
  | .par branches =>
    let (branches, position) := compileBranches rule label (position + 1) branches
    (.par branches, position)

def compileSteps (rule : Nat) (label : String) (position : Nat) :
    List FileStep → List (Step (Stage Json)) × Nat
  | [] => ([], position)
  | step :: steps =>
    let (step, position) := compileStep rule label position step
    let (steps, position) := compileSteps rule label position steps
    (step :: steps, position)

def compileBranches (rule : Nat) (label : String) (position : Nat) :
    List (List FileStep) → List (Step (Stage Json)) × Nat
  | [] => ([], position)
  | branch :: branches =>
    let (steps, position) := compileSteps rule label position branch
    let (branches, position) := compileBranches rule label position branches
    (.seq steps :: branches, position)

end

/-! ## Rules -/

namespace RuleSpec

def label (rule : RuleSpec) (index : Nat) : String :=
  rule.name.getD ("rule " ++ toString index)

def fieldConditions (rule : RuleSpec) : List (Condition Json) :=
  rule.conditions.map fun (field, value) => ⟨fieldVariable field, .ofJson value⟩

def patch (rule : RuleSpec) (index : Nat) : Patch (Stage Json) :=
  sequencePatch (compileSteps index (rule.label index) 0 rule.steps).1

end RuleSpec

/-! ## Plans -/

namespace PlanFile

def deciderConfig (file : PlanFile) : DeciderConfig := ⟨file.maxNodes⟩

def addRules (item : RuleSpec → Nat → τ) (builder : DeciderBuilder Json τ) :
    List (RuleSpec × Nat) → Except DecisionError (DeciderBuilder Json τ)
  | [] => .ok builder
  | (rule, index) :: rules =>
    match builder.addRule rule.fieldConditions (item rule index) with
    | (.ok (), builder) => addRules item builder rules
    | (.error error, _) => .error error

def buildDecider (file : PlanFile) (item : RuleSpec → Nat → τ) (factory : Factory Json τ π ω) :
    Except DecisionError (Decider Json τ π ω) :=
  match addRules item (.new file.deciderConfig) file.rules.zipIdx with
  | .ok builder => (builder.build factory).outcome
  | .error error => .error error

def ruleMatcher (file : PlanFile) :
    Except DecisionError (Decider Json String (List String) (List String)) :=
  file.buildDecider RuleSpec.label (.ofItems id)

def operationPlan (file : PlanFile) : Except DecisionError (OperationPlan Json (Stage Json)) :=
  file.buildDecider RuleSpec.patch planFactory

def addPatches (editor : Editor Json) :
    List (RuleSpec × Nat) → Except ExecutionError Unit × Editor Json
  | [] => (.ok (), editor)
  | (rule, index) :: rules =>
    match editor.addPatch rule.fieldConditions (rule.patch index) with
    | (.ok (), editor) => addPatches editor rules
    | (.error error, editor) => (.error error, editor)

def install (file : PlanFile) (registry : Registry Json) :
    Except ExecutionError Unit × Registry Json :=
  registry.edit file.name fun editor => addPatches editor file.rules.zipIdx

end PlanFile

end Runbook.Plan
