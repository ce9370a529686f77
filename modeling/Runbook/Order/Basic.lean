import Runbook.Firsts
import Runbook.Key
import Runbook.Text.Quoted

/-!
# Orders

An order holds values under keys, and links that say which key comes first.  A key that stands
before or after another one is linked to it when its node is made.  Every registered value and every
link has a token, which takes it back once.

Nodes are kept in the order of their creation, registered values and links in the order in which
they were added.  A linear arrangement, once found, is remembered until the next edit.
-/

namespace Runbook

/-! ## Tokens and errors -/

structure ItemToken where
  id : Nat
  key : Key
  deriving DecidableEq, Repr

structure LinkToken where
  id : Nat
  source : Key
  target : Key
  deriving DecidableEq, Repr

inductive Token where
  | item (token : ItemToken)
  | link (token : LinkToken)
  deriving DecidableEq, Repr

def Token.describe : Token → String
  | .item token => "Item under " ++ token.key.display
  | .link token => "Link from " ++ token.source.display ++ " to " ++ token.target.display

inductive OrderError where
  | invalidKey (source : String)
  | duplicateValue (key : Key)
  | alreadyRemoved (token : Token)
  | cycleDetected (keys : List Key)
  deriving DecidableEq, Repr

def OrderError.message : OrderError → String
  | .invalidKey source => "Illegal key source " ++ Text.quote source
  | .duplicateValue key => "Value is already registered for key " ++ key.display
  | .alreadyRemoved token => token.describe ++ " is already unregistered"
  | .cycleDetected keys =>
    "Found a loop containing: " ++
      ", ".intercalate (keys.map fun key => "\"" ++ key.display ++ "\"")

def Key.parse (source : String) : Except OrderError Key :=
  match Key.parseText source.toList with
  | .ok key => .ok key
  | .error blank => .error (.invalidKey (String.ofList blank))

/-! ## The data -/

structure Order.Item (V : Type) where
  id : Nat
  value : V

structure Order.Node (V : Type) where
  key : Key
  items : List (Order.Item V)

structure Order.Link where
  id : Nat
  source : Nat
  target : Nat
  deriving DecidableEq, Repr

structure Order (V : Type) where
  nodes : Array (Order.Node V)
  links : Array Order.Link
  nextItem : Nat
  nextLink : Nat
  nextUnique : Nat
  arranged : Option (List Nat)

namespace Order

variable {V : Type}

def empty : Order V := ⟨#[], #[], 0, 0, 0, none⟩

instance : Inhabited (Order V) := ⟨empty⟩

def Node.values (node : Node V) : List V := node.items.map (·.value)

def place? (order : Order V) (key : Key) : Option Nat :=
  order.nodes.findIdx? (·.key = key)

def keys (order : Order V) : List Key := order.nodes.toList.map (·.key)

def contains (order : Order V) (key : Key) : Bool := (order.place? key).isSome

def nodeCount (order : Order V) : Nat := order.nodes.size

def size (order : Order V) : Nat := (order.nodes.toList.flatMap (·.items)).length

def keyAt? (order : Order V) (place : Nat) : Option Key := (order.nodes[place]?).map (·.key)

def valuesAt (order : Order V) (place : Nat) : List V :=
  match order.nodes[place]? with
  | some node => node.values
  | none => []

def values (order : Order V) (key : Key) : List V :=
  match order.place? key with
  | some place => order.valuesAt place
  | none => []

/-- The places that a node waits for, each once, by their oldest link. -/
def dependenciesAt (order : Order V) (place : Nat) : List Nat :=
  firsts ((order.links.toList.filter (·.target = place)).map (·.source))

def dependencies (order : Order V) (key : Key) : List Key :=
  match order.place? key with
  | some place => (order.dependenciesAt place).filterMap order.keyAt?
  | none => []

def hasDependents (order : Order V) (place : Nat) : Bool :=
  order.links.any (·.source = place)

/-! ## Editing -/

def addLink (order : Order V) (source target : Nat) : Order V :=
  { order with
    links := order.links.push ⟨order.nextLink, source, target⟩
    nextLink := order.nextLink + 1
    arranged := none }

def addNode (order : Order V) (key : Key) : Order V :=
  { order with nodes := order.nodes.push ⟨key, []⟩, arranged := none }

/-- Makes sure that a key has a node; gives its place.  A new node for a key before or after another
one is linked to it. -/
def ensure (order : Order V) (key : Key) : Nat × Order V :=
  match order.place? key with
  | some place => (place, order)
  | none =>
    let place := order.nodeCount
    let order := order.addNode key
    match key with
    | .pre base =>
      let (basePlace, order) := order.ensure base
      (place, order.addLink place basePlace)
    | .post base =>
      let (basePlace, order) := order.ensure base
      (place, order.addLink basePlace place)
    | .unique _ | .constant _ => (place, order)

def expect (order : Order V) (key : Key) : Order V := (order.ensure key).2

def addItem (order : Order V) (place : Nat) (value : V) : Order V :=
  { order with
    nodes := order.nodes.modify place fun node =>
      { node with items := node.items ++ [⟨order.nextItem, value⟩] }
    nextItem := order.nextItem + 1
    arranged := none }

/-- Registers a value under a key; no key holds a value twice. -/
def register [BEq V] (order : Order V) (key : Key) (value : V) :
    Except OrderError ItemToken × Order V :=
  let (place, order) := order.ensure key
  if (order.valuesAt place).contains value then (.error (.duplicateValue key), order)
  else (.ok ⟨order.nextItem, key⟩, order.addItem place value)

def freshKey (order : Order V) : Key × Order V :=
  (.unique (.fresh order.nextUnique), { order with nextUnique := order.nextUnique + 1 })

def registerUnique (order : Order V) (value : V) : ItemToken × Order V :=
  let (key, order) := order.freshKey
  let (place, order) := order.ensure key
  (⟨order.nextItem, key⟩, order.addItem place value)

def link (order : Order V) (source target : Key) : LinkToken × Order V :=
  let (sourcePlace, order) := order.ensure source
  let (targetPlace, order) := order.ensure target
  (⟨order.nextLink, source, target⟩, order.addLink sourcePlace targetPlace)

def put [BEq V] (order : Order V) (key : String) (value : V) :
    Except OrderError ItemToken × Order V :=
  match Key.parse key with
  | .ok key => order.register key value
  | .error error => (.error error, order)

def connect (order : Order V) (source target : String) :
    Except OrderError LinkToken × Order V :=
  match Key.parse source, Key.parse target with
  | .ok source, .ok target =>
    let (token, order) := order.link source target
    (.ok token, order)
  | .error error, _ => (.error error, order)
  | .ok _, .error error => (.error error, order)

def Node.holds (node : Node V) (id : Nat) : Bool := node.items.any (·.id = id)

def Node.remove (node : Node V) (id : Nat) : Node V :=
  { node with items := node.items.filter (·.id ≠ id) }

def unregister (order : Order V) (token : Token) : Except OrderError Unit × Order V :=
  match token with
  | .item { id, .. } =>
    if order.nodes.any (·.holds id) then
      (.ok (), { order with nodes := order.nodes.map (·.remove id), arranged := none })
    else (.error (.alreadyRemoved token), order)
  | .link { id, .. } =>
    if order.links.any (·.id = id) then
      (.ok (), { order with links := order.links.filter (·.id ≠ id), arranged := none })
    else (.error (.alreadyRemoved token), order)

end Order

end Runbook
