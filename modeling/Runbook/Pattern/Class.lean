import Runbook.Pattern.Syntax
import Runbook.Unicode.Age
import Runbook.Unicode.Break
import Runbook.Unicode.Folding
import Runbook.Unicode.ScriptExtension

/-!
# Classes of characters

Under its flags a class means a set of code points.  Some classes mean nothing: they have an unknown
name, or they leave what can be said without code points.
-/

namespace Runbook.Pattern

open Unicode (CodeSet NamedSet)

structure Flags where
  ignoreCase : Bool
  multiLine : Bool
  dotNewline : Bool
  unicode : Bool
  crlf : Bool
  swapGreed : Bool

def Flags.default : Flags := ⟨false, false, false, true, false, false⟩

def Flags.apply (flags : Flags) (change : FlagChange) : Flags :=
  { ignoreCase := change.ignoreCase.getD flags.ignoreCase
    multiLine := change.multiLine.getD flags.multiLine
    dotNewline := change.dotNewline.getD flags.dotNewline
    unicode := change.unicode.getD flags.unicode
    crlf := change.crlf.getD flags.crlf
    swapGreed := change.swapGreed.getD flags.swapGreed }

def Flags.fold (flags : Flags) (set : CodeSet) : CodeSet :=
  if !flags.ignoreCase then set
  else if flags.unicode then set.foldCase
  else set.foldAsciiCase

/-! ## Common classes -/

def AsciiKind.set : AsciiKind → CodeSet
  | .alnum => .read ["30-39 41-5A 61-7A"]
  | .alpha => .read ["41-5A 61-7A"]
  | .ascii => .read ["0-7F"]
  | .blank => .read ["9 20"]
  | .cntrl => .read ["0-1F 7F"]
  | .digit => .read ["30-39"]
  | .graph => .read ["21-7E"]
  | .lower => .read ["61-7A"]
  | .print => .read ["20-7E"]
  | .punct => .read ["21-2F 3A-40 5B-60 7B-7E"]
  | .space => .read ["9-D 20"]
  | .upper => .read ["41-5A"]
  | .word => .read ["30-39 41-5A 5F 61-7A"]
  | .xdigit => .read ["30-39 41-46 61-66"]

def Shorthand.set (kind : Shorthand) (unicode : Bool) : CodeSet :=
  match kind, unicode with
  | .digit, true => Unicode.Category.set .decimalNumber
  | .space, true => Unicode.whiteSpace
  | .word, true => Unicode.wordCharacters
  | .digit, false => AsciiKind.set .digit
  | .space, false => AsciiKind.set .space
  | .word, false => AsciiKind.set .word

/-! ## Named classes -/

/-- Names are compared without case, blanks, hyphens, underscores and the letters "is" in front. -/
def normalizeName (name : List Char) : String :=
  let letters (text : List Char) : List Char :=
    (text.filter fun c => c != ' ' && c != '_' && c != '-' && c.toNat < 0x80).map Char.toLower
  match name with
  | i :: s :: rest =>
    if i.toLower = 'i' ∧ s.toLower = 's' then
      if letters rest = ['c'] then "isc" else String.ofList (letters rest)
    else String.ofList (letters name)
  | _ => String.ofList (letters name)

/-- Some abbreviations of categories are also those of properties that are no classes. -/
def isCategoryOnly (name : String) : Bool := ["cf", "sc", "lc"].contains name

def nameSet? (name : String) : Option CodeSet :=
  (if isCategoryOnly name then none else NamedSet.find? Unicode.binaryProperties name) <|>
    NamedSet.find? Unicode.categorySets name <|> NamedSet.find? Unicode.scripts name

def valueSet? (property value : String) : Option CodeSet :=
  match property with
  | "gc" | "generalcategory" => NamedSet.find? Unicode.categorySets value
  | "sc" | "script" => NamedSet.find? Unicode.scripts value
  | "scx" | "scriptextensions" => NamedSet.find? Unicode.scriptExtensions value
  | "age" => Unicode.age? value
  | "gcb" | "graphemeclusterbreak" => NamedSet.find? Unicode.graphemeBreaks value
  | "wb" | "wordbreak" => NamedSet.find? Unicode.wordBreaks value
  | "sb" | "sentencebreak" => NamedSet.find? Unicode.sentenceBreaks value
  | _ => none

def ClassQuery.set? : ClassQuery → Option CodeSet
  | .letter c => nameSet? (normalizeName [c])
  | .name text => nameSet? (normalizeName text.toList)
  | .value property text => valueSet? (normalizeName property.toList) (normalizeName text.toList)

/-! ## Bracketed classes -/

/-- Without code points only ASCII characters can be meant. -/
def literalCode? (flags : Flags) (literal : Literal) : Option Nat :=
  if flags.unicode || literal.char.toNat < 0x80 then some literal.char.toNat else none

/-- Without code points no class may be negated, since it would hold parts of characters. -/
def negatable (flags : Flags) (negated : Bool) : Bool := flags.unicode || !negated

def SetOperation.apply (operation : SetOperation) (a b : CodeSet) : CodeSet :=
  match operation with
  | .intersection => a.intersection b
  | .difference => a.difference b
  | .symmetricDifference => a.symmetricDifference b

mutual

/-- The code points that a class stands for.  Negation comes after the folding of case. -/
def ClassSet.set? (flags : Flags) : ClassSet → Option CodeSet
  | .literal written => (literalCode? flags written).map .single
  | .range first last => do
    let first ← literalCode? flags first
    let last ← literalCode? flags last
    return ⟨[⟨first, last⟩]⟩
  | .ascii kind negated => do
    guard (negatable flags negated)
    return (flags.fold kind.set).complementIf negated
  | .shorthand kind negated => do
    guard (negatable flags negated)
    return (kind.set flags.unicode).complementIf negated
  | .unicode query negated => do
    guard flags.unicode
    let set ← query.set?
    return (flags.fold set).complementIf negated
  | .bracket set negated => do
    guard (negatable flags negated)
    let set ← set.set? flags
    return (flags.fold set).complementIf negated
  | .union sets => (ClassSet.sets? flags sets).map .unions
  | .combine operation left right => do
    let left ← left.set? flags
    let right ← right.set? flags
    return operation.apply (flags.fold left) (flags.fold right)

def ClassSet.sets? (flags : Flags) : List ClassSet → Option (List CodeSet)
  | [] => some []
  | set :: sets => do
    let first ← set.set? flags
    let others ← ClassSet.sets? flags sets
    return first :: others

end

end Runbook.Pattern
