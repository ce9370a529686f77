import Runbook.Pattern.Footprint
import Runbook.Pattern.Meaning
import Runbook.Pattern.Parser

/-!
# Matching

Over one text a regular expression relates positions: from where it starts to match to where it can
end.  A set of positions is a number whose bits stand for its members, and the relation is computed
for all starts at once, so nothing depends on the order in which alternatives are tried.
-/

namespace Runbook.Pattern

/-! ## Tests of a position -/

def isWordAt (unicode : Bool) (c : Option Char) : Bool :=
  c.any fun c => (Shorthand.set .word unicode).contains c.toNat

def Look.holds (look : Look) (before after : Option Char) : Bool :=
  match look with
  | .start => before.isNone
  | .finish => after.isNone
  | .startLine => before.isNone || before == some '\n'
  | .finishLine => after.isNone || after == some '\n'
  | .startLineCrlf =>
    before.isNone || before == some '\n' || (before == some '\r' && after != some '\n')
  | .finishLineCrlf =>
    after.isNone || after == some '\r' || (after == some '\n' && before != some '\r')
  | .word unicode kind =>
    let before := isWordAt unicode before
    let after := isWordAt unicode after
    match kind with
    | .wordBoundary => before != after
    | .notWordBoundary => before == after
    | .wordStart => !before && after
    | .wordEnd => before && !after
    | .wordStartHalf => !before
    | .wordEndHalf => !after
    | _ => false

/-! ## Sets of positions -/

def positionsOf (answers : List Bool) : Nat :=
  answers.foldr (fun answer positions => 2 * positions + answer.toNat) 0

def charPositions (test : Char → Bool) (text : List Char) : Nat := positionsOf (text.map test)

def lookPositions (look : Look) (text : List Char) : Nat :=
  let chars := text.map some
  positionsOf (List.zipWith look.holds (none :: chars) (chars ++ [none]))

def allPositions (text : List Char) : Nat := Nat.pow 2 (text.length + 1) - 1

/-! ## Movements -/

/-- What a regular expression does in one text: it stays at some positions, or steps over the
characters behind some positions, or puts such movements together. -/
inductive Movement where
  | stay (places : Nat)
  | step (places : Nat)
  | follow (first second : Movement)
  | either (left right : Movement)
  | repetition (body : Movement) (least more : Nat)

namespace Movement

def nowhere : Movement := .stay 0

/-- Exactly as many movements as given; once a movement changes nothing, no further one does. -/
def steps (move : Nat → Nat) : Nat → Nat → Nat
  | 0, positions => positions
  | count + 1, positions =>
    let next := move positions
    if next = positions then positions else steps move count next

/-- At most as many movements as given: only what was reached last is moved on. -/
def spread (move : Nat → Nat) : Nat → Nat → Nat → Nat
  | 0, reached, _ => reached
  | count + 1, reached, latest =>
    let all := reached ||| move latest
    if all = reached then reached else spread move count all (all ^^^ reached)

def ends : Movement → Nat → Nat
  | .stay places, positions => positions &&& places
  | .step places, positions => (positions &&& places) <<< 1
  | .follow first second, positions => second.ends (first.ends positions)
  | .either left right, positions => left.ends positions ||| right.ends positions
  | .repetition body least more, positions =>
    let reached := steps body.ends least positions
    spread body.ends more reached reached

end Movement

mutual

/-- The movement of an expression in a text.  After more copies than the text has positions nothing
new is reached, so counts are cut there. -/
def Regex.movement (text : List Char) : Regex → Movement
  | .empty => .stay (allPositions text)
  | .literal word =>
    word.foldr (fun c rest => .follow (.step (charPositions (· == c) text)) rest)
      (.stay (allPositions text))
  | .chars set => .step (charPositions (fun c => set.contains c.toNat) text)
  | .look test => .stay (lookPositions test text)
  | .repetition body least most _ =>
    let enough := text.length + 1
    let more := (most.map (· - least)).getD enough
    .repetition (body.movement text) (min least enough) (min more enough)
  | .capture _ body => body.movement text
  | .concat parts => Regex.sequenceMovement text parts
  | .alternation branches => Regex.choiceMovement text branches

def Regex.sequenceMovement (text : List Char) : List Regex → Movement
  | [] => .stay (allPositions text)
  | part :: parts => .follow (part.movement text) (Regex.sequenceMovement text parts)

def Regex.choiceMovement (text : List Char) : List Regex → Movement
  | [] => .nowhere
  | branch :: branches => .either (branch.movement text) (Regex.choiceMovement text branches)

end

def Regex.occursIn (regex : Regex) (text : List Char) : Bool :=
  (regex.movement text).ends (allPositions text) != 0

/-! ## Patterns -/

def compile? (pattern : String) : Option Regex := do
  let ast ← parse? pattern.toList
  let regex ← ast.regex?
  if regex.isTooLarge then none else some regex

def anchored (pattern : String) : String := "^(?:" ++ pattern ++ ")$"

def Regex.matchesText (regex : Regex) (text : String) : Bool := regex.occursIn text.toList

end Runbook.Pattern
