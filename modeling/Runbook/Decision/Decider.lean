import Runbook.Decision.Tree

/-!
# Deciders

A decider walks a compiled tree and turns the items it meets into an output.  The part of the work
that depends on the items alone, the preparation, is done once for each node at which a walk ends.
-/

namespace Runbook.Decision

variable {ι τ π ω : Type}

/-- How items become an output: a preparation from the items alone, and the output from the
preparation and the context. -/
structure Factory (ι τ π ω : Type) where
  prepare : List τ → π
  finish : π → Context ι → Except DecisionError ω × Context ι

def Factory.ofItems (convert : List τ → ω) : Factory ι τ ω ω :=
  ⟨convert, fun prepared context => (.ok prepared, context)⟩

structure Prepared (τ π : Type) where
  node : Nat
  items : List τ
  result : π

structure Decider (ι τ π ω : Type) where
  tree : Tree ι τ
  factory : Factory ι τ π ω
  prepared : List (Prepared τ π)

structure Decided (ι τ π ω : Type) where
  outcome : Except DecisionError ω
  calls : List (Variable ι)
  decider : Decider ι τ π ω

namespace Decider

def new (tree : Tree ι τ) (factory : Factory ι τ π ω) : Decider ι τ π ω := ⟨tree, factory, []⟩

def prepare (decider : Decider ι τ π ω) (walk : WalkEnd τ) : π × Decider ι τ π ω :=
  match decider.prepared.find? (·.node = walk.node) with
  | some prepared => (prepared.result, decider)
  | none =>
    let result := decider.factory.prepare walk.items
    (result, { decider with prepared := decider.prepared ++ [⟨walk.node, walk.items, result⟩] })

def preparations (decider : Decider ι τ π ω) : Nat := decider.prepared.length

def decide (decider : Decider ι τ π ω) (input : ι) : Decided ι τ π ω :=
  match decider.tree.walk (.new input) with
  | .error error context => ⟨.error (.evaluation error), context.calls, decider⟩
  | .ok walk context =>
    let (prepared, decider) := decider.prepare walk
    let (outcome, context) := decider.factory.finish prepared context
    ⟨outcome, context.calls, decider⟩

end Decider

/-! ## Building -/

structure DeciderConfig where
  maxNodes : Option Nat
  deriving DecidableEq

def DeciderConfig.unlimited : DeciderConfig := ⟨none⟩

structure DeciderBuilder (ι τ : Type) where
  rules : List (Rule ι τ)
  config : DeciderConfig

/-- What a build leaves behind: its outcome, and the variables whose own functions were called. -/
structure Built (ι : Type) (α : Type) where
  outcome : Except DecisionError α
  calls : List (Variable ι)

namespace DeciderBuilder

def new (config : DeciderConfig) : DeciderBuilder ι τ := ⟨[], config⟩

def ruleCount (builder : DeciderBuilder ι τ) : Nat := builder.rules.length

def addRule (builder : DeciderBuilder ι τ) (conditions : List (Condition ι)) (item : τ) :
    Except DecisionError Unit × DeciderBuilder ι τ :=
  match Rule.of conditions item with
  | .ok rule => (.ok (), { builder with rules := builder.rules ++ [rule] })
  | .error error => (.error error, builder)

def buildTree (builder : DeciderBuilder ι τ) : Built ι (Tree ι τ) :=
  match compileRules builder.config.maxNodes builder.rules ⟨0, []⟩ with
  | .ok tree progress => ⟨.ok tree, progress.calls⟩
  | .error error progress => ⟨.error error, progress.calls⟩

def build (builder : DeciderBuilder ι τ) (factory : Factory ι τ π ω) :
    Built ι (Decider ι τ π ω) :=
  let built := builder.buildTree
  ⟨built.outcome.map (Decider.new · factory), built.calls⟩

end DeciderBuilder

end Runbook.Decision
