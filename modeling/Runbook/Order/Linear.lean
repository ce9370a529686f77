import Runbook.Order.Basic

/-!
# Linear arrangements

Nodes are placed in the order of their creation, each one after everything it waits for.  The
placement works on a stack of open nodes; a node that waits for an open node closes a loop, which
consists of the open nodes from the innermost one back to that node.
-/

namespace Runbook.Order

variable {V : Type}

/-! ## Placement -/

structure Frame where
  place : Nat
  pending : List Nat

def openBackTo (place : Nat) : List Frame → List Nat
  | [] => []
  | frame :: stack =>
    if frame.place = place then [frame.place] else frame.place :: openBackTo place stack

/-- Works off a stack of open nodes.  `placed` holds the finished places, latest first; an error is
the loop that was met. -/
def placeStack (order : Order V) : Nat → List Frame → List Nat → Except (List Nat) (List Nat)
  | 0, _, placed => .ok placed
  | _ + 1, [], placed => .ok placed
  | fuel + 1, ⟨place, []⟩ :: stack, placed => order.placeStack fuel stack (place :: placed)
  | fuel + 1, ⟨place, next :: pending⟩ :: stack, placed =>
    if placed.contains next then order.placeStack fuel (⟨place, pending⟩ :: stack) placed
    else if place = next ∨ stack.any (·.place = next) then
      .error (openBackTo next (⟨place, pending⟩ :: stack))
    else
      order.placeStack fuel (⟨next, order.dependenciesAt next⟩ :: ⟨place, pending⟩ :: stack) placed

/-- A bound on the moves of one placement: every node is closed once, every dependency looked at
once. -/
def placeFuel (order : Order V) : Nat := order.nodes.size + order.links.size + 1

def placeRoot (order : Order V) (placed : List Nat) (root : Nat) :
    Except (List Nat) (List Nat) :=
  if placed.contains root then .ok placed
  else order.placeStack order.placeFuel [⟨root, order.dependenciesAt root⟩] placed

/-- All places, each one after the places it waits for, or the keys of a loop. -/
def linearize (order : Order V) : Except OrderError (List Nat) :=
  match (List.range order.nodeCount).foldlM order.placeRoot [] with
  | .ok placed => .ok placed.reverse
  | .error loop => .error (.cycleDetected (loop.filterMap order.keyAt?))

/-! ## Reading -/

/-- The remembered arrangement, or else a new one, which is remembered. -/
def arrange (order : Order V) : Except OrderError (List Nat) × Order V :=
  match order.arranged with
  | some places => (.ok places, order)
  | none =>
    match order.linearize with
    | .ok places => (.ok places, { order with arranged := some places })
    | .error error => (.error error, order)

def validate (order : Order V) : Except OrderError Unit × Order V :=
  let (places, order) := order.arrange
  (places.map fun _ => (), order)

def entryAt? (order : Order V) (place : Nat) : Option (Key × List V) :=
  (order.nodes[place]?).map fun node => (node.key, node.values)

def linearEntries (order : Order V) : Except OrderError (List (Key × List V)) × Order V :=
  let (places, order) := order.arrange
  (places.map fun places => places.filterMap order.entryAt?, order)

def toLinearList (order : Order V) : Except OrderError (List V) × Order V :=
  let (entries, order) := order.linearEntries
  (entries.map fun entries => entries.flatMap (·.2), order)

/-! ## Folding -/

def resultAt? (results : List (Nat × α)) (place : Nat) : Option α :=
  (results.find? (·.1 = place)).map (·.2)

def foldPlace (order : Order V) (fold : Key → List V → List α → α) (results : List (Nat × α))
    (place : Nat) : List (Nat × α) :=
  match order.entryAt? place with
  | none => results
  | some (key, values) =>
    let inputs := (order.dependenciesAt place).filterMap (resultAt? results)
    results ++ [(place, fold key values inputs)]

def foldPlaces (order : Order V) (fold : Key → List V → List α → α) (places : List Nat) :
    List (Nat × α) :=
  places.foldl (order.foldPlace fold) []

/-- Folds over the nodes, each one after those it waits for: the results of all nodes as they are
computed, and the results of the nodes that nothing waits for, by creation. -/
def visit (order : Order V) (fold : Key → List V → List α → α) :
    Except OrderError (List α × List α) × Order V :=
  let (places, order) := order.arrange
  let outcome := places.map fun places =>
    let results := order.foldPlaces fold places
    let ends := (List.range order.nodeCount).filter fun place => !order.hasDependents place
    (results.map (·.2), ends.filterMap (resultAt? results))
  (outcome, order)

end Runbook.Order
