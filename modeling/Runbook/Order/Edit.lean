import Runbook.Order.Sequence

/-!
# Edits

An edit changes an order and yields tokens, with which it can be taken back.  Some edits consist of
several changes; those made before an error stay.
-/

namespace Runbook.Order

variable {V : Type}

inductive Side where
  | before
  | after
  deriving DecidableEq, Repr

inductive Edit (V : Type) where
  | register (key : KeySource) (value : V)
  | registerUnique (value : V)
  | link (source target : KeySource)
  | expect (key : KeySource)
  /-- A value together with links of its key. -/
  | item (key : KeySource) (links : List (Side × KeySource)) (value : V)
  /-- A sequence whose first step waits for the given keys. -/
  | sequence (after : List KeySource) (steps : List (Step V))
  | unregister (token : Token)

structure Edited (V : Type) where
  outcome : Except OrderError Unit
  tokens : List Token
  notes : List (List Key)
  order : Order V

def Edited.failed (order : Order V) (error : OrderError) : Edited V := ⟨.error error, [], [], order⟩

def Edited.done (order : Order V) (tokens : List Token) : Edited V := ⟨.ok (), tokens, [], order⟩

def linkAll (order : Order V) (key : Key) :
    List (Side × KeySource) → Except OrderError (List Token) × Order V
  | [] => (.ok [], order)
  | (side, other) :: links =>
    match other.resolve with
    | .error error => (.error error, order)
    | .ok other =>
      let (token, order) :=
        match side with
        | .before => order.link key other
        | .after => order.link other key
      let (tokens, order) := order.linkAll key links
      (tokens.map (.link token :: ·), order)

def registerLinked [BEq V] (order : Order V) (key : Key) (links : List (Side × KeySource))
    (value : V) : Except OrderError (List Token) × Order V :=
  match order.linkAll key links with
  | (.error error, order) => (.error error, order)
  | (.ok tokens, order) =>
    let (item, order) := order.register key value
    (item.map fun item => tokens ++ [.item item], order)

def runSequence [BEq V] (order : Order V) (after : List Key) (steps : List (Step V)) :
    Edited V :=
  let (outcome, builder) := (Builder.startingAfter order after).runSteps steps
  ⟨outcome, builder.tokens, builder.notes ++ [builder.ends], builder.order⟩

def Edit.run [BEq V] (order : Order V) : Edit V → Edited V
  | .register key value =>
    match key.resolve with
    | .error error => .failed order error
    | .ok key =>
      match order.register key value with
      | (.ok token, order) => .done order [.item token]
      | (.error error, order) => .failed order error
  | .registerUnique value =>
    let (token, order) := order.registerUnique value
    .done order [.item token]
  | .link source target =>
    match source.resolve, target.resolve with
    | .ok source, .ok target =>
      let (token, order) := order.link source target
      .done order [.link token]
    | .error error, _ => .failed order error
    | .ok _, .error error => .failed order error
  | .expect key =>
    match key.resolve with
    | .error error => .failed order error
    | .ok key => .done (order.expect key) []
  | .item key links value =>
    match key.resolve with
    | .error error => .failed order error
    | .ok key =>
      match order.registerLinked key links value with
      | (.ok tokens, order) => .done order tokens
      | (.error error, order) => .failed order error
  | .sequence after steps =>
    match after.mapM KeySource.resolve with
    | .error error => .failed order error
    | .ok after => order.runSequence after steps
  | .unregister token =>
    match order.unregister token with
    | (.ok (), order) => .done order []
    | (.error error, order) => .failed order error

end Runbook.Order
