import Runbook.Execution.Stage
import Runbook.Json.Field
import Runbook.Variable

/-!
# Plans over documents

Variables that read a field of a document, and stages that write one.
-/

namespace Runbook.Plan

/-- Reads a field of the document; a missing field reads as null. -/
def fieldVariable (path : String) : Variable Json :=
  .primary path (fun document => .ok (.ofJson? (document.readField? path))) false

def setStage (id : StageId) (name : String) (fields : List (String × Json)) : Stage Json :=
  .ofEdit id name fun document => (document.setFields fields).mapError (·.message)

def appendStage (id : StageId) (name field : String) (value : Json) : Stage Json :=
  .ofEdit id name fun document => (document.appendToField field value).mapError (·.message)

end Runbook.Plan
