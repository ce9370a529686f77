/-!
# Stages

A stage is a named piece of work on a context.  It hands on a context, reports a failure, or breaks
off without a report, which unwinds whatever runs it.  Stages are equal when they have the same
identity, whatever their names.
-/

namespace Runbook

structure StageError where
  message : String
  deriving DecidableEq, Repr

inductive StageOutcome (γ : Type) where
  | finished (context : γ)
  | failed (error : StageError)
  /-- `message` is what a runtime says of a task that the stage unwinds. -/
  | aborted (message : String)

/-- Where a stage comes from: the table or rule that made it, and its number there. -/
structure StageId where
  origin : Nat
  index : Nat
  deriving DecidableEq, Repr

structure Stage (γ : Type) where
  id : StageId
  name : String
  run : γ → StageOutcome γ

instance : BEq (Stage γ) := ⟨fun a b => a.id == b.id⟩

def Stage.ofEdit (id : StageId) (name : String) (edit : γ → Except String γ) : Stage γ :=
  ⟨id, name, fun context =>
    match edit context with
    | .ok context => .finished context
    | .error message => .failed ⟨message⟩⟩

end Runbook
