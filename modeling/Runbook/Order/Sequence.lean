import Runbook.Order.Basic

/-!
# Sequences

A sequence describes an order as nested blocks.  Steps of a block run one after another or side by
side; a step waits for the keys that its block has reached, the frontier, and becomes the frontier
itself.  A detached block starts from nothing and holds nothing back.
-/

namespace Runbook

inductive KeySource where
  | key (key : Key)
  | text (source : String)
  | pre (base : KeySource)
  | post (base : KeySource)

def KeySource.resolve : KeySource → Except OrderError Key
  | .key exact => .ok exact
  | .text source => Key.parse source
  | .pre base => base.resolve.map .pre
  | .post base => base.resolve.map .post

namespace Order

variable {V : Type}

inductive Mode where
  | sequential
  | parallel
  deriving DecidableEq, Repr

inductive Step (V : Type) where
  | add (value : V)
  | addKeyed (key : KeySource) (value : V)
  | expect (key : KeySource)
  | seq (steps : List (Step V))
  | par (steps : List (Step V))
  | independently (steps : List (Step V))
  /-- Runs a step and drops its error. -/
  | attempt (step : Step V)
  /-- Notes down which keys a next step would wait for. -/
  | note

structure Builder (V : Type) where
  order : Order V
  mode : Mode
  start : List Key
  frontier : List Key
  tokens : List Token
  notes : List (List Key)

namespace Builder

/-- An outermost block whose first step waits for the given keys. -/
def startingAfter (order : Order V) (keys : List Key) : Builder V :=
  ⟨order, .sequential, keys, keys, [], []⟩

def predecessors (builder : Builder V) : List Key :=
  match builder.mode with
  | .sequential => builder.frontier
  | .parallel => builder.start

def ends (builder : Builder V) : List Key :=
  match builder.mode with
  | .sequential => builder.frontier
  | .parallel => if builder.frontier.isEmpty then builder.start else builder.frontier

/-- Moves the frontier: in a sequence to the new keys, side by side to them too. -/
def advance (builder : Builder V) (keys : List Key) : Builder V :=
  match builder.mode with
  | .sequential => { builder with frontier := keys }
  | .parallel => { builder with frontier := appendNew builder.frontier keys }

def waitFor (builder : Builder V) (target source : Key) : Builder V :=
  let (token, order) := builder.order.link source target
  { builder with order, tokens := builder.tokens ++ [Token.link token] }

def stepTo (builder : Builder V) (key : Key) : Builder V :=
  (builder.predecessors.foldl (·.waitFor key ·) builder).advance [key]

def addUnder [BEq V] (builder : Builder V) (key : Key) (value : V) :
    Except OrderError Unit × Builder V :=
  match builder.order.register key value with
  | (.ok token, order) =>
    let builder := { builder with order, tokens := builder.tokens ++ [Token.item token] }
    (.ok (), builder.stepTo key)
  | (.error error, order) => (.error error, { builder with order })

def nested (builder : Builder V) (mode : Mode) (start : List Key) : Builder V :=
  { builder with
    mode, start
    frontier := match mode with
      | .sequential => start
      | .parallel => []
    tokens := [] }

/-- What an inner block leaves behind, whether it failed or not. -/
def absorb (builder inner : Builder V) : Builder V :=
  { builder with
    order := inner.order
    tokens := builder.tokens ++ inner.tokens
    notes := inner.notes }

mutual

def runStep [BEq V] (builder : Builder V) : Step V → Except OrderError Unit × Builder V
  | .add value =>
    let (key, order) := builder.order.freshKey
    { builder with order }.addUnder key value
  | .addKeyed key value =>
    match key.resolve with
    | .ok key => builder.addUnder key value
    | .error error => (.error error, builder)
  | .expect key =>
    match key.resolve with
    | .ok key => (.ok (), { builder with order := builder.order.expect key }.stepTo key)
    | .error error => (.error error, builder)
  | .seq steps =>
    let (outcome, inner) := (builder.nested .sequential builder.predecessors).runSteps steps
    match outcome with
    | .ok () => (.ok (), (builder.absorb inner).advance inner.ends)
    | .error error => (.error error, builder.absorb inner)
  | .par steps =>
    let (outcome, inner) := (builder.nested .parallel builder.predecessors).runSteps steps
    match outcome with
    | .ok () => (.ok (), (builder.absorb inner).advance inner.ends)
    | .error error => (.error error, builder.absorb inner)
  | .independently steps =>
    let (outcome, inner) := (builder.nested .sequential []).runSteps steps
    (outcome, builder.absorb inner)
  | .attempt step => (.ok (), (builder.runStep step).2)
  | .note => (.ok (), { builder with notes := builder.notes ++ [builder.ends] })

def runSteps [BEq V] (builder : Builder V) : List (Step V) → Except OrderError Unit × Builder V
  | [] => (.ok (), builder)
  | step :: steps =>
    match builder.runStep step with
    | (.ok (), builder) => builder.runSteps steps
    | (.error error, builder) => (.error error, builder)

end

end Builder

end Order

end Runbook
