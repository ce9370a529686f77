import Runbook.Variable

/-!
# Contexts

Variables observe the input and each other through a context.  The context of a running decision
evaluates every variable at most once and remembers its value; a failure is not remembered.  While
rules are compiled there is no input, only values that are assumed.
-/

namespace Runbook.Decision

/-! ## Live contexts -/

/-- The context of a running decision: the input, the values found so far in the order in which they
were found, and the variables whose own functions were called, in the order of the calls. -/
structure Context (ι : Type) where
  input : ι
  resolved : List (Variable ι × Value)
  calls : List (Variable ι)

variable {ι α : Type}

/-- A computation in a live context.  The context outlives an error. -/
abbrev Live (ι : Type) := EStateM VariableError (Context ι)

namespace Context

def new (input : ι) : Context ι := ⟨input, [], []⟩

def value? (context : Context ι) (subject : Variable ι) : Option Value :=
  Variable.find? context.resolved subject

def remember (context : Context ι) (subject : Variable ι) (value : Value) : Context ι :=
  match context.value? subject with
  | some _ => context
  | none => { context with resolved := context.resolved ++ [(subject, value)] }

def noteCall (context : Context ι) (subject : Variable ι) : Context ι :=
  { context with calls := context.calls ++ [subject] }

def resolvedCount (context : Context ι) : Nat := context.resolved.length

end Context

namespace Live

def call (subject : Variable ι) (values : List Value) : Live ι Value := fun context =>
  let result :=
    match subject.ownFunction with
    | .ofInput read => read context.input
    | .ofValues derive => derive values
  match result with
  | .ok value => .ok value (context.noteCall subject)
  | .error error => .error error (context.noteCall subject)

/-- Takes the value of a variable if it is known, and else computes and remembers it. -/
def fetch (subject : Variable ι) (compute : Live ι Value) : Live ι Value := fun context =>
  match context.value? subject with
  | some value => .ok value context
  | none =>
    match compute context with
    | .ok value context => .ok value (context.remember subject value)
    | .error error context => .error error context

mutual

def evaluate (subject : Variable ι) : Live ι Value :=
  match subject with
  | .primary name read traced => call (.primary name read traced) []
  | .identity convert => call (.identity convert) []
  | .predicate source label test traced => do
    let value ← fetch source (evaluate source)
    call (.predicate source label test traced) [value]
  | .derived name dependencies derive traced => do
    let values ← fetchAll dependencies
    call (.derived name dependencies derive traced) values
  | .regexMatch source pattern regex => do
    let value ← fetch source (evaluate source)
    call (.regexMatch source pattern regex) [value]
  | .size source => do
    let value ← fetch source (evaluate source)
    call (.size source) [value]

def fetchAll (subjects : List (Variable ι)) : Live ι (List Value) :=
  match subjects with
  | [] => pure []
  | subject :: subjects => do
    let value ← fetch subject (evaluate subject)
    let values ← fetchAll subjects
    return value :: values

end

def get (subject : Variable ι) : Live ι Value := fetch subject (evaluate subject)

end Live

/-! ## Assumed values -/

/-- Values assumed for variables; the latest assumption comes first. -/
abbrev Assumptions (ι : Type) := List (Variable ι × Value)

def assumed? (assumptions : Assumptions ι) (subject : Variable ι) : Option Value :=
  Variable.find? assumptions subject

def assumedDependency (target : Variable ι) (assumptions : Assumptions ι)
    (dependency : Variable ι) : Except VariableError Value :=
  match assumed? assumptions dependency with
  | some value => .ok value
  | none => .error (.unexpectedDependency target.display dependency.display)

/-- Computes a variable from assumed values alone.  The flag says whether its own function was
called. -/
def evaluateAssumed (target : Variable ι) (assumptions : Assumptions ι) :
    Except VariableError Value × Bool :=
  match target.dependencies.mapM (assumedDependency target assumptions) with
  | .error error => (.error error, false)
  | .ok values =>
    match target.ownFunction with
    | .ofInput _ => (.error (.unexpectedInput target.display), false)
    | .ofValues derive => (derive values, true)

end Runbook.Decision
