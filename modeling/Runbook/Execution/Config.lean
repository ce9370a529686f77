import Runbook.Execution.Executor
import Runbook.Json.Decode

/-!
# Executor settings in documents
-/

namespace Runbook

open Json

namespace ExecutionMode

def name : ExecutionMode → String
  | .sequential => "sequential"
  | .concurrent => "concurrent"

def ofName? : String → Option ExecutionMode
  | "sequential" => some .sequential
  | "concurrent" => some .concurrent
  | _ => none

/-- A mode is written as its name, or as an object with that name over null. -/
def read? : Reader ExecutionMode := fun depth written =>
  match written with
  | .string units => (stringOf? units).bind ofName?
  | .object [(key, .null)] => if depth = 0 then none else (stringOf? key).bind ofName?
  | _ => none

end ExecutionMode

namespace ExecutorConfig

def positive? (written : Written) : Option Nat :=
  written.natural?.filter (0 < ·)

def read? : Reader ExecutorConfig := fun depth written => do
  match ← written.record? ["mode", "max_concurrent_stages"] depth with
  | [mode, limit] =>
    let mode ← Written.optional .sequential (ExecutionMode.read? (depth - 1)) mode
    let limit ← Written.optional none (Written.nullable positive?) limit
    return ⟨mode, limit⟩
  | _ => none

def parse? (text : String) : Option ExecutorConfig :=
  (Written.ofText? text).bind (read? depthLimit)

def toJson (config : ExecutorConfig) : Json :=
  let limit : Json :=
    match config.maxConcurrentStages with
    | some limit => .number (.int limit)
    | none => .null
  objectOf [("mode", .string config.mode.name), ("max_concurrent_stages", limit)]

end ExecutorConfig

end Runbook
