import Runbook.Execution.Error
import Runbook.Order.Linear

/-!
# Executors

An executor runs the stages of an order.  The sequential one runs them one after another; a stage
that breaks off unwinds it.  The concurrent one gives each key a task: the task waits for those of
the keys that its key depends on, merges their contexts, and runs the stages of its key.  The
runtime catches a task that is unwound.  A task whose dependency failed runs nothing; tasks that do
not depend on a failed one still run.  What tasks compute does not hang on when they run, so it is
given without a schedule.
-/

namespace Runbook

variable {γ ε : Type}

/-- What an execution leaves behind: its outcome, the stages that were started, and how often two
contexts were merged. -/
structure Run (ε γ : Type) where
  outcome : Except ε γ
  started : List (Stage γ)
  merges : Nat

namespace Run

def ofError (error : ε) : Run ε γ := ⟨.error error, [], 0⟩

def mapError {ε' : Type} (f : ε → ε') (run : Run ε γ) : Run ε' γ :=
  ⟨run.outcome.mapError f, run.started, run.merges⟩

end Run

/-! ## Stages of a key -/

/-- Runs stages one after another, up to the first that does not finish.  Gives the outcome of the
last one and all that were started. -/
def runStages (context : γ) : List (Stage γ) → StageOutcome γ × List (Stage γ)
  | [] => (.finished context, [])
  | stage :: rest =>
    match stage.run context with
    | .finished context =>
      let (outcome, started) := runStages context rest
      (outcome, stage :: started)
    | outcome => (outcome, [stage])

namespace StageOutcome

/-- What an outcome comes to in a task of its own. -/
def inTask (key : Key) : StageOutcome γ → Except ExecutionError γ
  | .finished context => .ok context
  | .failed error => .error (.stageFailed key error)
  | .aborted message => .error (.taskAborted key message)

/-- What an outcome comes to where no task is around it. -/
def inTurn (key : Key) : StageOutcome γ → Except Halt γ
  | .finished context => .ok context
  | .failed error => .error (.reported (.stageFailed key error))
  | .aborted _ => .error .unwound

end StageOutcome

namespace Run

def stages (key : Key) (context : γ) (stages : List (Stage γ)) : Run ExecutionError γ :=
  let (outcome, started) := runStages context stages
  ⟨outcome.inTask key, started, 0⟩

def entries (context : γ) : List (Key × List (Stage γ)) → Run Halt γ
  | [] => ⟨.ok context, [], 0⟩
  | (key, stages) :: rest =>
    let (outcome, started) := runStages context stages
    match outcome.inTurn key with
    | .error halt => ⟨.error halt, started, 0⟩
    | .ok context =>
      let others := entries context rest
      { others with started := started ++ others.started }

end Run

/-! ## Merging -/

structure Merged (γ : Type) where
  context : Option γ
  merges : Nat

def Merged.nothing : Merged γ := ⟨none, 0⟩

def Merged.add (reducer : γ → γ → γ) (merged : Merged γ) (context : γ) : Merged γ :=
  match merged.context with
  | none => ⟨some context, merged.merges⟩
  | some earlier => ⟨some (reducer earlier context), merged.merges + 1⟩

structure KeyRun (γ : Type) where
  key : Key
  run : Run ExecutionError γ

/-- Merges the contexts of tasks up to the first that failed, which is given with its error. -/
def mergeRuns (reducer : γ → γ → γ) (merged : Merged γ) :
    List (KeyRun γ) → Merged γ × Option (Key × ExecutionError)
  | [] => (merged, none)
  | task :: rest =>
    match task.run.outcome with
    | .ok context => mergeRuns reducer (merged.add reducer context) rest
    | .error error => (merged, some (task.key, error))

def KeyRun.of (reducer : γ → γ → γ) (input : γ) (key : Key) (stages : List (Stage γ))
    (dependencies : List (KeyRun γ)) : KeyRun γ :=
  match mergeRuns reducer .nothing dependencies with
  | (merged, some (dependency, error)) =>
    ⟨key, .error (.dependencyFailed key dependency error), [], merged.merges⟩
  | (merged, none) =>
    let run := Run.stages key (merged.context.getD input) stages
    ⟨key, run.outcome, run.started, merged.merges⟩

/-! ## Executors -/

inductive ExecutionMode where
  | sequential
  | concurrent
  deriving DecidableEq, Repr

structure ExecutorConfig where
  mode : ExecutionMode
  maxConcurrentStages : Option Nat
  deriving DecidableEq, Repr

def ExecutorConfig.default : ExecutorConfig := ⟨.sequential, none⟩

/-- The greatest limit that the stages of a concurrent run can be counted against. -/
def greatestStageLimit : Nat := Nat.pow 2 61 - 1

def ExecutorConfig.isAvailable (config : ExecutorConfig) : Bool :=
  config.mode == .sequential || config.maxConcurrentStages.all (· ≤ greatestStageLimit)

structure Executor (γ : Type) where
  config : ExecutorConfig
  reducer : γ → γ → γ

def runSequential (order : Order (Stage γ)) (input : γ) : Run Halt γ :=
  match order.linearEntries.1 with
  | .error error => .ofError (.reported (.order error))
  | .ok entries => .entries input entries

/-- Runs the keys of an order side by side where no links forbid it.  The result merges the contexts
of the keys that nothing depends on. -/
def runConcurrent (reducer : γ → γ → γ) (order : Order (Stage γ)) (input : γ) :
    Run ExecutionError γ :=
  match (order.visit (KeyRun.of reducer input)).1 with
  | .error error => .ofError (.order error)
  | .ok (tasks, ends) =>
    let (merged, failure) := mergeRuns reducer .nothing ends
    let outcome :=
      match failure with
      | some (_, error) => .error error
      | none => .ok (merged.context.getD input)
    ⟨outcome, tasks.flatMap (·.run.started), (tasks.map (·.run.merges)).foldr (· + ·) merged.merges⟩

namespace Executor

def runCase (executor : Executor γ) (order : Order (Stage γ)) (input : γ) : Run Halt γ :=
  match executor.config.mode with
  | .sequential => runSequential order input
  | .concurrent => (runConcurrent executor.reducer order input).mapError .reported

end Executor

end Runbook
