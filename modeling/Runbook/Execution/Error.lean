import Runbook.Decision.Rule
import Runbook.Execution.Stage
import Runbook.Order.Basic

/-!
# Failures of executions
-/

namespace Runbook

open Decision

inductive ExecutionError where
  | order (error : OrderError)
  | decision (error : DecisionError)
  | stageFailed (key : Key) (error : StageError)
  | dependencyFailed (key dependency : Key) (source : ExecutionError)
  | taskAborted (key : Key) (message : String)
  | unknownOperation (name : String)

namespace ExecutionError

def message : ExecutionError → String
  | .order error => error.message
  | .decision error => error.message
  | .stageFailed key error => "Stage " ++ key.display ++ " failed: " ++ error.message
  | .dependencyFailed key dependency _ =>
    "Stages of " ++ key.display ++ " skipped: " ++ dependency.display ++ " failed"
  | .taskAborted key message => "Task for " ++ key.display ++ " did not complete: " ++ message
  | .unknownOperation name => "Unknown operation: " ++ name

def rootCause : ExecutionError → ExecutionError
  | .dependencyFailed _ _ source => source.rootCause
  | other => other

end ExecutionError

/-- Why an execution hands on no context: it reports an error, or a stage that broke off unwound
it. -/
inductive Halt where
  | reported (error : ExecutionError)
  | unwound

end Runbook
