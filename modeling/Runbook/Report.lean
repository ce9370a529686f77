import Runbook.Json.Merge
import Runbook.Plan.Compile

/-!
# Reports

What the two commands print.  `run` prints the document that a plan makes of its input, `explain`
the decision tree of the plan, the rules that the input matches, and the stages chosen for it.  A
failure is printed with its causes, and what was printed before it stays.
-/

namespace Runbook

open Decision

/-! ## Failures with their causes -/

/-- A failure as it is reported: its message, and the messages of its causes from the nearest one
on. -/
structure Failure where
  message : String
  causes : List String

namespace Failure

def of (message : String) : Failure := ⟨message, []⟩

def during (failure : Failure) (context : String) : Failure :=
  ⟨context, failure.message :: failure.causes⟩

def decisionCauses : DecisionError → List String
  | .assumptionViolated _ source => [source.message]
  | _ => []

def executionCauses : ExecutionError → List String
  | .order _ => []
  | .decision error => decisionCauses error
  | .stageFailed _ error => [error.message]
  | .dependencyFailed _ _ source => source.message :: executionCauses source
  | .taskAborted .. => []
  | .unknownOperation _ => []

def ofDecision (error : DecisionError) : Failure := ⟨error.message, decisionCauses error⟩

def ofExecution (error : ExecutionError) : Failure := ⟨error.message, executionCauses error⟩

def indentLines (indent text : String) : String :=
  String.ofList (text.toList.flatMap fun c => if c = '\n' then c :: indent.toList else [c])

def padLeft (width : Nat) (text : String) : String :=
  String.ofList (List.replicate (width - text.length) ' ') ++ text

def causeText (numbered : Bool) (cause : String) (number : Nat) : String :=
  if numbered then "\n" ++ padLeft 5 (toString number) ++ ": " ++ indentLines "       " cause
  else "\n    " ++ indentLines "    " cause

def render (failure : Failure) : String :=
  let causes :=
    if failure.causes.isEmpty then ""
    else
      "\n\nCaused by:" ++ String.join
        (failure.causes.zipIdx.map fun (cause, number) =>
          causeText (1 < failure.causes.length) cause number)
  "Error: " ++ failure.message ++ causes ++ "\n"

end Failure

/-! ## Commands -/

inductive Action where
  /-- `compact` prints the document on one line. -/
  | run (compact : Bool)
  | explain
  deriving DecidableEq, Repr

structure Source where
  path : Option String
  text : Option String

structure Output where
  code : Nat
  stdout : String
  stderr : String
  deriving DecidableEq, Repr

namespace Report

open Plan

/-- How a command ends: an aborted one says nothing about its reason. -/
inductive Ending where
  | finished
  | failed (failure : Failure)
  | aborted

def Ending.ofHalt : Halt → Ending
  | .reported error => .failed (.ofExecution error)
  | .unwound => .aborted

structure Printed where
  text : String
  ending : Ending

def loadPlan (source : Source) : Except Failure PlanFile :=
  let path := source.path.getD ""
  match source.text with
  | none => .error (.of ("Failed to read plan file " ++ path))
  | some text =>
    match PlanFile.parse? text with
    | some file => .ok file
    | none => .error (.of ("Failed to parse plan file " ++ path))

def loadDocument (source : Source) : Except Failure Json :=
  match source.text with
  | none =>
    .error (.of ("Failed to read input " ++ source.path.getD "from stdin"))
  | some text =>
    match Json.parse? text with
    | some document => .ok document
    | none => .error (.of "Input is not a JSON document")

def runPlan (file : PlanFile) (document : Json) : Except Ending Json :=
  let registry := { Registry.new ⟨file.executor, Json.merge⟩ with config := file.deciderConfig }
  match file.install registry with
  | (.error error, _) =>
    .error (.failed
      ((Failure.ofExecution error).during ("Failed to install operation " ++ file.name)))
  | (.ok (), registry) =>
    match registry.resolve file.name with
    | .error error => .error (.failed (.ofExecution error))
    | .ok operation => (operation.execute document).outcome.mapError .ofHalt

/-- One key of a case plan with the names of its stages; a generated key is not shown. -/
def stageLine (number : Nat) (key : Key) (names : List String) : String :=
  let start := "  " ++ toString number ++ ". "
  let listed := ", ".intercalate names
  match key with
  | .unique _ => start ++ listed ++ "\n"
  | key =>
    if names.isEmpty then start ++ key.display ++ " (no stages)\n"
    else start ++ key.display ++ ": " ++ listed ++ "\n"

def stageLines (entries : List (Key × List (Stage Json))) : String :=
  String.join (entries.zipIdx.map fun ((key, stages), index) =>
    stageLine (index + 1) key (stages.map (·.name)))

def explainStages (file : PlanFile) (document : Json) : Except Failure String :=
  match file.operationPlan with
  | .error error => .error (.ofDecision error)
  | .ok plan =>
    match (plan.decide document).outcome with
    | .error error => .error (.ofDecision error)
    | .ok order =>
      match order.linearEntries.1 with
      | .error error => .error (.of error.message)
      | .ok entries => .ok ("Stages:\n" ++ stageLines entries)

def explainPlan (file : PlanFile) (document : Json) : Printed :=
  match file.ruleMatcher with
  | .error error => ⟨"", .failed (.ofDecision error)⟩
  | .ok matcher =>
    let tree := "Decision tree:\n" ++ matcher.tree.render Text.quote
    match (matcher.decide document).outcome with
    | .error error => ⟨tree, .failed (.ofDecision error)⟩
    | .ok labels =>
      let rules := tree ++ "\nMatching rules: " ++ ", ".intercalate labels ++ "\n"
      match explainStages file document with
      | .error failure => ⟨rules, .failed failure⟩
      | .ok stages => ⟨rules ++ stages, .finished⟩

def perform (action : Action) (plan input : Source) : Printed :=
  match loadPlan plan with
  | .error failure => ⟨"", .failed failure⟩
  | .ok file =>
    match loadDocument input with
    | .error failure => ⟨"", .failed failure⟩
    | .ok document =>
      match action with
      | .explain => explainPlan file document
      | .run compact =>
        if !file.executor.isAvailable then ⟨"", .aborted⟩
        else
          match runPlan file document with
          | .error ending => ⟨"", ending⟩
          | .ok document =>
            ⟨(if compact then document.compact else document.pretty) ++ "\n", .finished⟩

def output (action : Action) (plan input : Source) : Output :=
  let printed := perform action plan input
  match printed.ending with
  | .finished => ⟨0, printed.text, ""⟩
  | .failed failure => ⟨1, printed.text, failure.render⟩
  | .aborted => ⟨101, printed.text, ""⟩

end Report

end Runbook
