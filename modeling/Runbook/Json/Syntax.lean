import Runbook.Json.Basic

/-!
# Documents as written

The text of a document is read in two steps.  The first one recognises the grammar and keeps what
was written: digits, escapes, and the fields of objects in their order.  The second one gives the
written form its meaning and can still fail: a number may exceed every double, an escape may name
half a surrogate pair, and nesting may be too deep.
-/

namespace Runbook.Json

open Decimal

inductive TextUnit where
  | char (c : Char)
  | unit (code : Nat)
  deriving DecidableEq

structure WrittenNumber where
  negative : Bool
  whole : List Nat
  fraction : Option (List Nat)
  exponent : Option (Bool × List Nat)

inductive Written where
  | null
  | bool (value : Bool)
  | number (value : WrittenNumber)
  | string (units : List TextUnit)
  | array (items : List Written)
  | object (fields : List (List TextUnit × Written))
  deriving Inhabited

/-! ## Reading the grammar -/

namespace Written

def isSpace (c : Char) : Bool :=
  c == ' ' || c == '\t' || c == '\n' || c == '\r'

def skipSpace (text : List Char) : List Char :=
  text.dropWhile isSpace

def digitValue (c : Char) : Nat := c.toNat - 48

def digits (text : List Char) : List Nat :=
  (text.takeWhile Char.isDigit).map digitValue

def afterDigits (text : List Char) : List Char :=
  text.dropWhile Char.isDigit

def hexValue? (c : Char) : Option Nat :=
  if c.isDigit then some (c.toNat - 48)
  else if 'a' ≤ c ∧ c ≤ 'f' then some (c.toNat - 87)
  else if 'A' ≤ c ∧ c ≤ 'F' then some (c.toNat - 55)
  else none

def codeUnit? (a b c d : Char) : Option Nat := do
  let a ← hexValue? a
  let b ← hexValue? b
  let c ← hexValue? c
  let d ← hexValue? d
  return ((a * 16 + b) * 16 + c) * 16 + d

def shortEscape? (c : Char) : Option Char :=
  match c with
  | '"' => some '"'
  | '\\' => some '\\'
  | '/' => some '/'
  | 'b' => some '\x08'
  | 'f' => some '\x0c'
  | 'n' => some '\n'
  | 'r' => some '\r'
  | 't' => some '\t'
  | _ => none

def readString : List Char → Option (List TextUnit × List Char)
  | '"' :: rest => some ([], rest)
  | '\\' :: 'u' :: a :: b :: c :: d :: rest => do
    let code ← codeUnit? a b c d
    let (units, rest) ← readString rest
    return (.unit code :: units, rest)
  | '\\' :: c :: rest => do
    let escaped ← shortEscape? c
    let (units, rest) ← readString rest
    return (.char escaped :: units, rest)
  | c :: rest =>
    if c.toNat < 0x20 then none
    else do
      let (units, rest) ← readString rest
      return (.char c :: units, rest)
  | [] => none

def readFraction (text : List Char) : Option (Option (List Nat) × List Char) :=
  match text with
  | '.' :: rest =>
    if (digits rest).isEmpty then none else some (some (digits rest), afterDigits rest)
  | _ => some (none, text)

def readExponentDigits (negative : Bool) (text : List Char) :
    Option (Option (Bool × List Nat) × List Char) :=
  if (digits text).isEmpty then none else some (some (negative, digits text), afterDigits text)

def readExponent (text : List Char) : Option (Option (Bool × List Nat) × List Char) :=
  match text with
  | mark :: rest =>
    if mark = 'e' ∨ mark = 'E' then
      match rest with
      | '+' :: rest => readExponentDigits false rest
      | '-' :: rest => readExponentDigits true rest
      | rest => readExponentDigits false rest
    else some (none, text)
  | [] => some (none, text)

/-- Reads a number without its sign.  A zero stands alone before the point. -/
def readMagnitude (negative : Bool) (text : List Char) : Option (WrittenNumber × List Char) := do
  let whole := digits text
  guard (!whole.isEmpty && (whole.head? != some 0 || whole.length == 1))
  let (fraction, rest) ← readFraction (afterDigits text)
  let (exponent, rest) ← readExponent rest
  return (⟨negative, whole, fraction, exponent⟩, rest)

def readNumber (text : List Char) : Option (WrittenNumber × List Char) :=
  match text with
  | '-' :: rest => readMagnitude true rest
  | _ => readMagnitude false text

mutual

/-- Reads one value; every step inwards spends fuel, of which a text's length is always enough. -/
def readValue : Nat → List Char → Option (Written × List Char)
  | 0, _ => none
  | fuel + 1, text =>
    match skipSpace text with
    | 'n' :: 'u' :: 'l' :: 'l' :: rest => some (.null, rest)
    | 't' :: 'r' :: 'u' :: 'e' :: rest => some (.bool true, rest)
    | 'f' :: 'a' :: 'l' :: 's' :: 'e' :: rest => some (.bool false, rest)
    | '"' :: rest => do
      let (units, rest) ← readString rest
      return (.string units, rest)
    | '[' :: rest =>
      match skipSpace rest with
      | ']' :: rest => some (.array [], rest)
      | rest => do
        let (items, rest) ← readItems fuel rest
        return (.array items, rest)
    | '{' :: rest =>
      match skipSpace rest with
      | '}' :: rest => some (.object [], rest)
      | rest => do
        let (fields, rest) ← readFields fuel rest
        return (.object fields, rest)
    | text => do
      let (value, rest) ← readNumber text
      return (.number value, rest)

def readItems : Nat → List Char → Option (List Written × List Char)
  | 0, _ => none
  | fuel + 1, text => do
    let (item, rest) ← readValue fuel text
    match skipSpace rest with
    | ',' :: rest =>
      let (items, rest) ← readItems fuel rest
      return (item :: items, rest)
    | ']' :: rest => return ([item], rest)
    | _ => none

def readFields : Nat → List Char → Option (List (List TextUnit × Written) × List Char)
  | 0, _ => none
  | fuel + 1, text =>
    match skipSpace text with
    | '"' :: rest => do
      let (key, rest) ← readString rest
      match skipSpace rest with
      | ':' :: rest =>
        let (value, rest) ← readValue fuel rest
        match skipSpace rest with
        | ',' :: rest =>
          let (fields, rest) ← readFields fuel rest
          return ((key, value) :: fields, rest)
        | '}' :: rest => return ([(key, value)], rest)
        | _ => none
      | _ => none
    | _ => none

end

def ofText? (text : String) : Option Written :=
  let characters := text.toList
  match readValue (2 * characters.length + 2) characters with
  | some (written, rest) => if (skipSpace rest).isEmpty then some written else none
  | none => none

end Written

/-! ## Meaning of numbers -/

def wordLimit : Nat := Nat.pow 2 64

def exponentLimit : Nat := Nat.pow 2 31

def takeDigits (word : Nat) : List Nat → Nat × List Nat
  | [] => (word, [])
  | digit :: rest =>
    if word * 10 + digit < wordLimit then takeDigits (word * 10 + digit) rest
    else (word, digit :: rest)

/-- Scales a double by a power of ten, at most `10 ^ 308` at a time; too large a value is refused,
too small a one becomes zero. -/
def scaleByTen : Nat → Binary64 → Int → Option Binary64
  | 0, _, _ => none
  | fuel + 1, value, exponent =>
    if exponent.natAbs ≤ 308 then do
      let power ← Binary64.ofNat? (Nat.pow 10 exponent.natAbs)
      if 0 ≤ exponent then value.mul? power else value.div? power
    else if value.isZero then some value
    else if 0 ≤ exponent then none
    else do
      let power ← Binary64.ofNat? (Nat.pow 10 308)
      let value ← value.div? power
      scaleByTen fuel value (exponent + 308)

def exponentValue? (exponent : List Nat) : Option Nat :=
  exponent.foldlM (fun total digit =>
    if total * 10 + digit < exponentLimit then some (total * 10 + digit) else none) 0

/-- The double `significand · 10 ^ exponent`, by one rounding of the significand and one of each
scaling step. -/
def doubleOf? (significand : Nat) (exponent : Int) : Option Binary64 := do
  let value ← Binary64.ofNat? significand
  scaleByTen (exponent.natAbs / 308 + 2) value exponent

/-- A number as written, with the part of it that no word can hold cut off. -/
def WrittenNumber.toDouble? (number : WrittenNumber) : Option Binary64 := do
  let (word, cutWhole) := takeDigits 0 number.whole
  let (word, scale) :=
    match number.fraction with
    | none => (word, (cutWhole.length : Int))
    | some fraction =>
      let (word, cutFraction) := takeDigits word fraction
      (word, (cutWhole.length : Int) - (fraction.length - cutFraction.length : Nat))
  let value ←
    match number.exponent with
    | none => doubleOf? word scale
    | some (negative, exponent) =>
      match exponentValue? exponent with
      | some size =>
        let size : Int := if negative then -(size : Int) else size
        doubleOf? word (max (-(exponentLimit : Int)) (min (exponentLimit - 1) (scale + size)))
      | none => if word != 0 && !negative then none else some (Binary64.zero false)
  return value.withSign number.negative

/-- Whole numbers of 64 bits stay whole, also negative ones of 63 bits; but minus zero is a
double. -/
def WrittenNumber.toNumber? (number : WrittenNumber) : Option Number :=
  match number.fraction, number.exponent, takeDigits 0 number.whole with
  | none, none, (word, []) =>
    if !number.negative then some (.int word)
    else if word = 0 || Nat.pow 2 63 < word then number.toDouble?.map .double
    else some (.int (-(word : Int)))
  | _, _, _ => number.toDouble?.map .double

/-! ## Meaning of strings and documents -/

/-- Joins surrogate halves; one that stands alone makes the string meaningless. -/
def textOf? : List TextUnit → Option (List Char)
  | [] => some []
  | .char c :: rest => (textOf? rest).map (c :: ·)
  | .unit code :: rest =>
    if 0xd800 ≤ code ∧ code < 0xdc00 then
      match rest with
      | .unit low :: rest =>
        if 0xdc00 ≤ low ∧ low < 0xe000 then
          (textOf? rest).map
            (Char.ofNat (0x10000 + (code - 0xd800) * 0x400 + (low - 0xdc00)) :: ·)
        else none
      | _ => none
    else if 0xdc00 ≤ code ∧ code < 0xe000 then none
    else (textOf? rest).map (Char.ofNat code :: ·)

def stringOf? (units : List TextUnit) : Option String :=
  (textOf? units).map String.ofList

namespace Written

mutual

/-- The document that was written, its fields still in written order.  `depth` is the number of
arrays and objects that may be nested. -/
def meaning? (depth : Nat) : Written → Option Json
  | .null => some .null
  | .bool value => some (.bool value)
  | .number value => value.toNumber?.map .number
  | .string units => (stringOf? units).map .string
  | .array items => if depth = 0 then none else (meaningItems? (depth - 1) items).map .array
  | .object fields => if depth = 0 then none else (meaningFields? (depth - 1) fields).map .object

def meaningItems? (depth : Nat) : List Written → Option (List Json)
  | [] => some []
  | item :: items => do
    let item ← meaning? depth item
    let items ← meaningItems? depth items
    return item :: items

def meaningFields? (depth : Nat) :
    List (List TextUnit × Written) → Option (List (String × Json))
  | [] => some []
  | (key, value) :: fields => do
    let key ← stringOf? key
    let value ← meaning? depth value
    let fields ← meaningFields? depth fields
    return (key, value) :: fields

end

end Written

def depthLimit : Nat := 127

def asWritten? (text : String) : Option Json := do
  let written ← Written.ofText? text
  written.meaning? depthLimit

def parse? (text : String) : Option Json :=
  (asWritten? text).map normalize

end Runbook.Json
