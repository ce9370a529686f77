import Runbook.Pattern.Syntax
import Runbook.Unicode.CodeSet

/-!
# Regular expressions

Regular expressions over sets of code points and tests of positions.  The functions that put them
together keep them simple: neighbouring texts are joined, a choice between characters is a set, and
what all branches of a choice begin with stands in front of it.
-/

namespace Runbook.Pattern

open Unicode (CodeRange CodeSet)

inductive Look where
  | start
  | finish
  | startLine
  | finishLine
  | startLineCrlf
  | finishLineCrlf
  | word (unicode : Bool) (kind : Assertion)
  deriving DecidableEq

/-- Regular expressions.  A repetition prefers many copies if it is greedy. -/
inductive Regex where
  | empty
  | literal (text : List Char)
  | chars (set : CodeSet)
  | look (test : Look)
  | repetition (body : Regex) (least : Nat) (most : Option Nat) (greedy : Bool)
  | capture (index : Nat) (body : Regex)
  | concat (parts : List Regex)
  | alternation (branches : List Regex)

namespace Regex

def never : Regex := .chars .empty

/-! ## Equality -/

mutual

def same : Regex → Regex → Bool
  | .empty, .empty => true
  | .literal a, .literal b => a == b
  | .chars a, .chars b => a == b
  | .look a, .look b => a == b
  | .repetition a least most greedy, .repetition b least' most' greedy' =>
    same a b && least == least' && most == most' && greedy == greedy'
  | .capture index a, .capture index' b => index == index' && same a b
  | .concat a, .concat b => sameAll a b
  | .alternation a, .alternation b => sameAll a b
  | _, _ => false

def sameAll : List Regex → List Regex → Bool
  | [], [] => true
  | a :: as, b :: bs => same a b && sameAll as bs
  | _, _ => false

end

mutual

def count : Regex → Nat
  | .repetition body _ _ _ => body.count + 1
  | .capture _ body => body.count + 1
  | .concat parts => countAll parts + 1
  | .alternation branches => countAll branches + 1
  | _ => 1

def countAll : List Regex → Nat
  | [] => 0
  | regex :: rest => regex.count + countAll rest

end

/-! ## Lengths -/

def codeSize (code : Nat) : Nat :=
  if code ≤ 0x7f then 1 else if code ≤ 0x7ff then 2 else if code ≤ 0xffff then 3 else 4

def textSize (text : List Char) : Nat := (text.map fun c => codeSize c.toNat).foldr (· + ·) 0

mutual

/-- The least number of bytes that a match takes, unless some part matches nothing at all. -/
def minSize? : Regex → Option Nat
  | .empty => some 0
  | .literal text => some (textSize text)
  | .chars set => set.ranges.head?.map fun range => codeSize range.first
  | .look _ => some 0
  | .repetition body least _ _ => body.minSize?.map (· * least)
  | .capture _ body => body.minSize?
  | .concat parts => (minSizes? parts).map (·.sum)
  | .alternation branches => (minSizes? branches).bind (·.min?)

def minSizes? : List Regex → Option (List Nat)
  | [] => some []
  | regex :: rest => do
    let size ← regex.minSize?
    let sizes ← minSizes? rest
    return size :: sizes

end

mutual

def maxSize? : Regex → Option Nat
  | .empty => some 0
  | .literal text => some (textSize text)
  | .chars set => set.ranges.getLast?.map fun range => codeSize range.last
  | .look _ => some 0
  | .repetition body _ most _ => do
    let most ← most
    let size ← body.maxSize?
    return size * most
  | .capture _ body => body.maxSize?
  | .concat parts => (maxSizes? parts).map (·.sum)
  | .alternation branches => (maxSizes? branches).bind (·.max?)

def maxSizes? : List Regex → Option (List Nat)
  | [] => some []
  | regex :: rest => do
    let size ← regex.maxSize?
    let sizes ← maxSizes? rest
    return size :: sizes

end

/-! ## Anchors -/

mutual

/-- Whether every match begins at the start of the text, or with `Look.finish` ends at its end: the
test is met before any character is taken. -/
def meets (test : Look) : Regex → Bool
  | .look other => other == test
  | .repetition body least _ _ => decide (0 < least) && body.meets test
  | .capture _ body => body.meets test
  | .concat parts =>
    let parts := meetings test parts
    let parts := if test = .finish then parts.reverse else parts
    let still := parts.takeWhile fun (_, taken) => taken == some 0
    (still ++ (parts.drop still.length).take 1).any fun (met, _) => met
  | .alternation branches => (meetings test branches).all fun (met, _) => met
  | _ => false

def meetings (test : Look) : List Regex → List (Bool × Option Nat)
  | [] => []
  | regex :: rest => (regex.meets test, regex.maxSize?) :: meetings test rest

end

/-! ## Construction -/

def ofSet (set : CodeSet) : Regex :=
  match set.ranges with
  | [⟨first, last⟩] => if first = last then .literal [Char.ofNat first] else .chars set
  | _ => .chars set

/-- Copies of what takes no character make no difference beyond the first.  No copies at all match
the empty text, and one copy is the body itself. -/
def repeated (body : Regex) (least : Nat) (most : Option Nat) (greedy : Bool) : Regex :=
  let idle := body.maxSize? == some 0
  let least := if idle then min least 1 else least
  let most := if idle then some (min (most.getD 1) 1) else most
  match least, most with
  | 0, some 0 => .empty
  | 1, some 1 => body
  | least, most => .repetition body least most greedy

def sequenceParts : Regex → List Regex
  | .empty => []
  | .concat parts => parts
  | regex => [regex]

/-- Puts a part before others; a text joins a text behind it. -/
def before : Regex → List Regex → List Regex
  | .literal text, .literal other :: rest => .literal (text ++ other) :: rest
  | part, rest => part :: rest

def sequence (parts : List Regex) : Regex :=
  match (parts.flatMap sequenceParts).foldr before [] with
  | [] => .empty
  | [part] => part
  | parts => .concat parts

def branchesOf : Regex → List Regex
  | .alternation branches => branches
  | regex => [regex]

def char? : Regex → Option CodeRange
  | .literal [c] => some (.single c.toNat)
  | _ => none

def set? : Regex → Option CodeSet
  | .chars set => some set
  | _ => none

def parts? : Regex → Option (List Regex)
  | .concat parts => some parts
  | _ => none

def commonParts (a b : List Regex) : List Regex :=
  ((a.zip b).takeWhile fun (x, y) => same x y).map (·.1)

/-- A choice between branches.  What all of them begin with is lifted out, and then what is left of
them is a choice of fewer parts; `fuel` bounds how often this happens. -/
def choiceFrom : Nat → List Regex → Regex
  | fuel, branches =>
    match branches.flatMap branchesOf with
    | [] => never
    | [branch] => branch
    | branches =>
      match branches.mapM char?, branches.mapM set?, branches.mapM parts?, fuel with
      | some ranges, _, _, _ => ofSet (.ofRanges ranges)
      | none, some sets, _, _ => ofSet (.unions sets)
      | none, none, some (first :: others), fuel + 1 =>
        match others.foldl commonParts first with
        | [] => .alternation branches
        | common =>
          let rests := (first :: others).map fun parts => sequence (parts.drop common.length)
          sequence (common ++ [choiceFrom fuel rests])
      | _, _, _, _ => .alternation branches

def choice (branches : List Regex) : Regex := choiceFrom (countAll branches) branches

end Regex

end Runbook.Pattern
