import Runbook.Decision.Decider
import Runbook.Execution.Executor
import Runbook.Order.Sequence

/-!
# Case plans

The rules of an operation select patches, which edit an order of stages.  For each set of selected
patches they are applied to an empty order one after another and the result is checked for loops;
this is the case plan.  Patches that fail or make a loop fail every decision that selects them.
-/

namespace Runbook.Plan

open Runbook.Decision Runbook.Order

variable {γ σ : Type}

abbrev Patch (σ : Type) := Order σ → Except OrderError Unit × Order σ

def sequencePatch [BEq σ] (steps : List (Step σ)) : Patch σ := fun order =>
  let (outcome, builder) := (Builder.startingAfter order []).runSteps steps
  (outcome, builder.order)

def applyPatches (order : Order σ) : List (Patch σ) → Except OrderError (Order σ)
  | [] => .ok order
  | patch :: patches =>
    match patch order with
    | (.ok (), order) => applyPatches order patches
    | (.error error, _) => .error error

def casePlan (patches : List (Patch σ)) : Except OrderError (Order σ) :=
  match applyPatches .empty patches with
  | .error error => .error error
  | .ok order =>
    match order.validate with
    | (.ok (), order) => .ok order
    | (.error error, _) => .error error

def planFactory : Factory γ (Patch σ) (Except OrderError (Order σ)) (Order σ) where
  prepare := casePlan
  finish prepared context := (prepared.mapError fun error => .output error.message, context)

abbrev OperationPlan (γ σ : Type) :=
  Decider γ (Patch σ) (Except OrderError (Order σ)) (Order σ)

structure Operation (γ : Type) where
  plan : OperationPlan γ (Stage γ)
  executor : Executor γ

def Operation.execute (operation : Operation γ) (input : γ) : Run Halt γ :=
  match (operation.plan.decide input).outcome with
  | .error error => .ofError (.reported (.decision error))
  | .ok order => operation.executor.runCase order input

end Runbook.Plan
