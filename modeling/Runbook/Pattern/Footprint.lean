import Runbook.Pattern.Regex
import Runbook.Pattern.Utf8

/-!
# The footprint of a regular expression

A regular expression is read by an automaton over bytes, forward from where a match starts or
backward from where it ends.  States take memory, and so do the transitions of a state and the ways
that a fork leads to.  A pattern is accepted only if neither automaton takes too much memory.
-/

namespace Runbook.Pattern

open Unicode (CodeSet)

structure Footprint where
  states : Nat
  bytes : Nat
  deriving DecidableEq, Repr

namespace Footprint

def empty : Footprint := ⟨0, 0⟩

def stateBytes : Nat := 32

def transitionBytes : Nat := 8

def wayBytes : Nat := 4

def limit : Nat := 10485760

def isTooLarge (footprint : Footprint) : Bool := decide (limit < footprint.bytes)

def addStates (count : Nat) (footprint : Footprint) : Footprint :=
  ⟨footprint.states + count, footprint.bytes + count * stateBytes⟩

def addBranching (transitions : Nat) (footprint : Footprint) : Footprint :=
  ⟨footprint.states + 1, footprint.bytes + stateBytes + transitions * transitionBytes⟩

def addWays (count : Nat) (footprint : Footprint) : Footprint :=
  { footprint with bytes := footprint.bytes + count * wayBytes }

end Footprint

inductive Direction where
  | forward
  | backward
  deriving DecidableEq

abbrev Growth := StateM Footprint

namespace Growth

def states (count : Nat) : Growth Unit := modify (·.addStates count)

def branching (transitions : Nat) : Growth Unit := modify (·.addBranching transitions)

def ways (count : Nat) : Growth Unit := modify (·.addWays count)

/-- Leads from the end of a part to what follows.  If the part ends in a fork, this is one more way
of the fork. -/
def link (endsInFork : Bool) : Growth Unit := ways (if endsInFork then 1 else 0)

end Growth

/-! ## Shared states

The states for a set of characters are shared where they lead to the same.  They are found again by
a table with a fixed number of places, in which a later state takes the place of an earlier one. -/

abbrev StateKey := List Nat

def mix (word : UInt64) : List Nat → UInt64
  | [] => word
  | number :: numbers => mix ((word ^^^ number.toUInt64) * 1099511628211) numbers

def place (size : Nat) (key : StateKey) : Nat := (mix 14695981039346656037 key).toNat % size

structure Sharing where
  footprint : Footprint
  known : Array (Option (StateKey × Nat))

abbrev SharedGrowth := StateM Sharing

def knownState? (known : Array (Option (StateKey × Nat))) (here : Nat) (key : StateKey) :
    Option Nat :=
  match known[here]? with
  | some (some (other, state)) => if other == key then some state else none
  | _ => none

def sharedState (key : StateKey) (grow : Footprint → Footprint) : SharedGrowth Nat :=
  fun ⟨footprint, known⟩ =>
    let here := place known.size key
    match knownState? known here key with
    | some state => (state, ⟨footprint, known⟩)
    | none =>
      let state := footprint.states
      (state, ⟨grow footprint, known.setIfInBounds here (some (key, state))⟩)

def SharedGrowth.run (size : Nat) (growth : SharedGrowth Unit) : Growth Unit := fun footprint =>
  let (_, sharing) := StateT.run growth ⟨footprint, Array.replicate size none⟩
  ((), sharing.footprint)

/-! ### Forward -/

def forwardPlaces : Nat := 10000

structure OpenState where
  transitions : List (ByteRange × Nat)
  last : Option ByteRange

def OpenState.close (state : OpenState) (next : Nat) : OpenState :=
  match state.last with
  | some range => ⟨(range, next) :: state.transitions, none⟩
  | none => state

def OpenState.key (state : OpenState) : StateKey :=
  state.transitions.reverse.flatMap fun (range, next) => [range.first, range.last, next]

def OpenState.complete (state : OpenState) : SharedGrowth Nat :=
  sharedState state.key (·.addBranching state.transitions.length)

def completePath (target : Nat) : List OpenState → SharedGrowth Nat
  | [] => return target
  | state :: path => do
    let next ← completePath target path
    (state.close next).complete

/-- Adds a sequence to the path of open states.  What it has in common with the sequence before
stays open, and the other states of the path are completed. -/
def addSequence (target : Nat) : List OpenState → List ByteRange → SharedGrowth (List OpenState)
  | state :: path, range :: ranges => do
    if state.last = some range then
      return state :: (← addSequence target path ranges)
    else
      let state := state.close (← completePath target path)
      return { state with last := some range } :: ranges.map fun range => ⟨[], some range⟩
  | path, _ => return path

def addSequences (target : Nat) : List OpenState → List (List ByteRange) →
    SharedGrowth (List OpenState)
  | path, [] => return path
  | path, ranges :: rest => do addSequences target (← addSequence target path ranges) rest

/-- The states for a set, where sequences that begin alike share their first states and sequences
that end alike share their last ones. -/
def growForward (sequences : List (List ByteRange)) : Growth Unit := do
  let target := (← get).states
  Growth.states 1
  SharedGrowth.run forwardPlaces do
    let path ← addSequences target [⟨[], none⟩] sequences
    let _ ← completePath target path

/-! ### Backward -/

def backwardPlaces : Nat := 1000

def addBackward : Nat → List ByteRange → SharedGrowth Unit
  | _, [] => return
  | next, range :: ranges => do
    let state ← sharedState [next, range.first, range.last] (·.addStates 1)
    addBackward state ranges

def addAllBackward (target : Nat) : List (List ByteRange) → SharedGrowth Unit
  | [] => return
  | ranges :: rest => do
    addBackward target ranges
    addAllBackward target rest

def growBackward (sequences : List (List ByteRange)) : Growth Unit := do
  let target := (← get).states + 1
  Growth.states 2
  SharedGrowth.run backwardPlaces (addAllBackward target sequences)
  Growth.ways sequences.length

/-! ### Sets of characters -/

def isAscii (set : CodeSet) : Bool := set.ranges.all (·.last ≤ 0x7f)

def growSet (direction : Direction) (set : CodeSet) : Growth Unit :=
  if isAscii set then do
    Growth.states 1
    Growth.branching set.ranges.length
  else
    match direction with
    | .forward => growForward (encodeSet set)
    | .backward => growBackward (encodeSet set)

/-! ## Choices between texts

Texts that begin alike share their first states.  A text that ends where others go on separates
those before it from those after it. -/

/-- A tree of texts: groups of children that are closed by the end of a text, and the group that is
still open. -/
inductive TextTree where
  | node (closed : List (List (Nat × TextTree))) (current : List (Nat × TextTree))
  deriving Inhabited

namespace TextTree

def leaf : TextTree := .node [] []

/-- Ends a text here.  A second end without any text between changes nothing. -/
def close : TextTree → TextTree
  | .node closed current =>
    if closed.all (·.isEmpty) && current.isEmpty && !closed.isEmpty then .node closed current
    else .node (closed ++ [current]) []

def child : TextTree → Nat → TextTree
  | .node _ current, byte => (current.lookup byte).getD leaf

def withChild : TextTree → Nat → TextTree → TextTree
  | .node closed current, byte, child =>
    .node closed ((byte, child) :: current.filter fun (other, _) => other != byte)

def add : TextTree → List Nat → TextTree
  | tree, [] => tree.close
  | tree, byte :: bytes => tree.withChild byte ((tree.child byte).add bytes)

def ofTexts (texts : List (List Nat)) : TextTree :=
  texts.foldl add leaf

def growGroup (children : Nat) : Growth Unit :=
  match children with
  | 0 => return
  | 1 => Growth.states 1
  | children => Growth.branching children

mutual

def grow : TextTree → Growth Unit
  | .node closed current => do
    if closed.all (·.isEmpty) && current.isEmpty then return
    else
      growGroups closed
      growChildren current
      growGroup current.length
      Growth.states 1
      Growth.ways
        (((closed ++ [current]).filter fun children => !children.isEmpty).length + closed.length)

def growGroups : List (List (Nat × TextTree)) → Growth Unit
  | [] => return
  | children :: groups => do
    growChildren children
    growGroup children.length
    growGroups groups

def growChildren : List (Nat × TextTree) → Growth Unit
  | [] => return
  | (_, tree) :: children => do
    tree.grow
    growChildren children

end

end TextTree

/-! ## Regular expressions

The growth for an expression says whether the automaton for it ends in a fork. -/

def moreCopies (grow : Growth Bool) : Nat → Bool → Growth Bool
  | 0, endsInFork => return endsInFork
  | count + 1, endsInFork => do
    if (← get).isTooLarge then return endsInFork
    else
      let next ← grow
      Growth.link endsInFork
      moreCopies grow count next

def copies (grow : Growth Bool) : Nat → Growth Bool
  | 0 => do
    Growth.states 1
    return false
  | count + 1 => do moreCopies grow count (← grow)

def optionalCopies (grow : Growth Bool) : Nat → Bool → Growth Bool
  | 0, endsInFork => do
    Growth.link endsInFork
    return false
  | count + 1, endsInFork => do
    if (← get).isTooLarge then return false
    else
      Growth.states 1
      let next ← grow
      Growth.link endsInFork
      Growth.ways 2
      optionalCopies grow count next

/-- Any number of copies, the empty one included.  A fork before the body is enough if every copy
takes some character. -/
def anyCopies (grow : Growth Bool) (takesSome : Bool) : Growth Bool := do
  if takesSome then
    Growth.states 1
    Growth.link (← grow)
    Growth.ways 1
    return true
  else
    Growth.link (← grow)
    Growth.states 3
    Growth.ways 4
    return false

def atLeast (grow : Growth Bool) (takesSome : Bool) : Nat → Growth Bool
  | 0 => anyCopies grow takesSome
  | 1 => do
    let last ← grow
    Growth.states 1
    Growth.link last
    Growth.ways 1
    return true
  | count + 1 => do
    let endsInFork ← copies grow count
    if (← get).isTooLarge then return true
    else
      let last ← grow
      Growth.states 1
      Growth.link endsInFork
      Growth.link last
      Growth.ways 1
      return true

def growRepetition (grow : Growth Bool) (takesSome : Bool) (least : Nat) (most : Option Nat) :
    Growth Bool :=
  match most with
  | none => atLeast grow takesSome least
  | some most =>
    if least = most then copies grow least
    else if least = 0 ∧ most = 1 then do
      Growth.states 1
      Growth.link (← grow)
      Growth.states 1
      Growth.ways 2
      return false
    else do
      let endsInFork ← copies grow least
      Growth.states 1
      optionalCopies grow (most - least) endsInFork

def Regex.text? : Regex → Option (List Char)
  | .literal text => some text
  | _ => none

def bytesOf (direction : Direction) (text : List Char) : List Nat :=
  match direction with
  | .forward => encodeText text
  | .backward => (encodeText text).reverse

mutual

def Regex.grow (direction : Direction) : Regex → Growth Bool
  | .empty => do
    Growth.states 1
    return false
  | .literal text => do
    Growth.states (textSize text)
    return false
  | .chars set => do
    growSet direction set
    return false
  | .look _ => do
    Growth.states 1
    return false
  | .repetition body least most _ =>
    growRepetition (body.grow direction) (body.minSize?.any (0 < ·)) least most
  | .capture _ body =>
    match direction with
    | .forward => do
      Growth.states 1
      Growth.link (← body.grow direction)
      Growth.states 1
      return false
    | .backward => body.grow direction
  | .concat parts =>
    match direction with
    | .forward => Regex.growForward parts
    | .backward => Regex.growBackward parts
  | .alternation branches =>
    match branches.mapM Regex.text? with
    | some texts => do
      Growth.states 1
      (TextTree.ofTexts (texts.map (bytesOf direction))).grow
      return false
    | none => Regex.growBranches direction 0 branches

def Regex.growForward : List Regex → Growth Bool
  | [] => do
    Growth.states 1
    return false
  | part :: parts => do
    let endsInFork ← part.grow .forward
    if parts.isEmpty then return endsInFork
    else
      Growth.link endsInFork
      Regex.growForward parts

def Regex.growBackward : List Regex → Growth Bool
  | [] => do
    Growth.states 1
    return false
  | part :: parts => do
    if parts.isEmpty then part.grow .backward
    else
      let endsInFork ← Regex.growBackward parts
      Growth.link endsInFork
      part.grow .backward

def Regex.growBranches (direction : Direction) : Nat → List Regex → Growth Bool
  | _, [] => return false
  | index, branch :: branches => do
    let endsInFork ← branch.grow direction
    if index = 1 then Growth.states 2
    Growth.ways 1
    Growth.link endsInFork
    Regex.growBranches direction (index + 1) branches

end

/-- What stands before an expression: nothing if every match starts where the reading starts, else a
loop over all bytes. -/
def growStart (anchored : Bool) : Growth Unit :=
  if anchored then Growth.states 1
  else do
    Growth.states 2
    Growth.branching 1
    Growth.ways 2

/-- The whole automaton, which ends in a state that reports the match.  Forward it also keeps where
the match starts and ends. -/
def Regex.footprint (regex : Regex) (direction : Direction) : Footprint :=
  let growth : Growth Unit :=
    match direction with
    | .forward => do
      growStart (regex.meets .start)
      let _ ← (Regex.capture 0 regex).grow .forward
      Growth.states 1
    | .backward => do
      growStart (regex.meets .finish)
      Growth.link (← regex.grow .backward)
      Growth.states 1
  (StateT.run growth .empty).2

def Regex.isTooLarge (regex : Regex) : Bool :=
  (regex.footprint .forward).isTooLarge || (regex.footprint .backward).isTooLarge

end Runbook.Pattern
