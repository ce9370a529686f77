/-!
# Patterns

The syntax of patterns: regular expressions without look-around and back-references.
-/

namespace Runbook.Pattern

/-- How a group or a flag setting changes the flags; what it does not name stays as it is. -/
structure FlagChange where
  ignoreCase : Option Bool
  multiLine : Option Bool
  dotNewline : Option Bool
  unicode : Option Bool
  crlf : Option Bool
  ignoreSpace : Option Bool
  swapGreed : Option Bool
  deriving DecidableEq

def FlagChange.none : FlagChange := ⟨.none, .none, .none, .none, .none, .none, .none⟩

inductive Shorthand where
  | digit
  | space
  | word
  deriving DecidableEq

inductive AsciiKind where
  | alnum | alpha | ascii | blank | cntrl | digit | graph | lower | print | punct | space | upper
  | word | xdigit
  deriving DecidableEq

inductive ClassQuery where
  | name (name : String)
  | letter (name : Char)
  | value (property name : String)

/-- A character as it is written; `byte` marks a two-digit hexadecimal escape. -/
structure Literal where
  char : Char
  byte : Bool

inductive SetOperation where
  | intersection
  | difference
  | symmetricDifference
  deriving DecidableEq

inductive ClassSet where
  | literal (literal : Literal)
  | range (first last : Literal)
  | ascii (kind : AsciiKind) (negated : Bool)
  | shorthand (kind : Shorthand) (negated : Bool)
  | unicode (query : ClassQuery) (negated : Bool)
  | bracket (set : ClassSet) (negated : Bool)
  | union (sets : List ClassSet)
  | combine (operation : SetOperation) (left right : ClassSet)

inductive Assertion where
  | startLine
  | endLine
  | startText
  | endText
  | wordBoundary
  | notWordBoundary
  | wordStart
  | wordEnd
  | wordStartHalf
  | wordEndHalf
  deriving DecidableEq

/-- The syntax of a pattern.  Groups that capture are numbered in the order in which they open. -/
inductive Ast where
  | empty
  | flags (change : FlagChange)
  | literal (literal : Literal)
  | dot
  | assertion (kind : Assertion)
  | shorthand (kind : Shorthand) (negated : Bool)
  | unicode (query : ClassQuery) (negated : Bool)
  | bracket (set : ClassSet) (negated : Bool)
  | repetition (body : Ast) (least : Nat) (most : Option Nat) (greedy : Bool)
  | capture (index : Nat) (body : Ast)
  | group (change : FlagChange) (body : Ast)
  | alternation (branches : List Ast)
  | concat (parts : List Ast)
  deriving Inhabited

/-! ## Nesting -/

mutual

def ClassSet.depth : ClassSet → Nat
  | .bracket set _ => set.depth + 1
  | .union [] => 0
  | .union (set :: sets) => max set.depth (ClassSet.depths sets) + 1
  | .combine _ left right => max left.depth right.depth + 1
  | _ => 0

def ClassSet.depths : List ClassSet → Nat
  | [] => 0
  | set :: sets => max set.depth (ClassSet.depths sets)

end

mutual

def Ast.depth : Ast → Nat
  | .bracket set _ => set.depth + 1
  | .repetition body _ _ _ => body.depth + 1
  | .capture _ body => body.depth + 1
  | .group _ body => body.depth + 1
  | .alternation branches => Ast.depths branches + 1
  | .concat parts => Ast.depths parts + 1
  | _ => 0

def Ast.depths : List Ast → Nat
  | [] => 0
  | ast :: asts => max ast.depth (Ast.depths asts)

end

def Ast.concatOf : List Ast → Ast
  | [] => .empty
  | [part] => part
  | parts => .concat parts

def Ast.alternationOf : List Ast → Ast
  | [] => .empty
  | [branch] => branch
  | branches => .alternation branches

def ClassSet.unionOf : List ClassSet → ClassSet
  | [set] => set
  | sets => .union sets

end Runbook.Pattern
