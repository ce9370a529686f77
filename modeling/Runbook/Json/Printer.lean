import Runbook.Json.Basic
import Runbook.Decimal.Shortest

/-!
# Printed documents

A document on one line without blanks, or one item to a line with two blanks for each level.
-/

namespace Runbook.Json

open Decimal

/-! ## Numbers -/

def isPositional (exponent : Int) : Bool := -5 ≤ exponent && exponent ≤ 15

def digitText (digits : Nat) : List Char := Nat.toDigits 10 digits

def positionalText (decimal : Scaled) : List Char :=
  let digits := digitText decimal.digits
  if 0 ≤ decimal.exponent then
    digits ++ List.replicate decimal.exponent.toNat '0' ++ ['.', '0']
  else
    let places := (-decimal.exponent).toNat
    let padded := List.replicate (places + 1 - digits.length) '0' ++ digits
    let cut := padded.length - places
    padded.take cut ++ '.' :: padded.drop cut

def scientificText (decimal : Scaled) : List Char :=
  let digits := digitText decimal.digits
  let exponent := decimal.exponent + (digits.length - 1 : Nat)
  let mantissa :=
    match digits with
    | [] => []
    | [digit] => [digit]
    | digit :: rest => digit :: '.' :: rest
  let sign := if exponent < 0 then '-' else '+'
  mantissa ++ 'e' :: sign :: digitText exponent.natAbs

def magnitudeText (value : Binary64) : List Char :=
  if value.isZero then ['0', '.', '0']
  else
    let decimal := shortest value
    let exponent := decimal.exponent + ((digitText decimal.digits).length - 1 : Nat)
    if isPositional exponent then positionalText decimal else scientificText decimal

def doubleText (value : Binary64) : List Char :=
  if value.negative then '-' :: magnitudeText value else magnitudeText value

def intText (value : Int) : List Char :=
  match value with
  | .ofNat n => digitText n
  | .negSucc n => '-' :: digitText (n + 1)

def Number.text : Number → List Char
  | .int value => intText value
  | .double value => doubleText value

/-! ## Strings -/

def escapeChar (c : Char) : List Char :=
  match c with
  | '"' => ['\\', '"']
  | '\\' => ['\\', '\\']
  | '\x08' => ['\\', 'b']
  | '\x0c' => ['\\', 'f']
  | '\n' => ['\\', 'n']
  | '\r' => ['\\', 'r']
  | '\t' => ['\\', 't']
  | c =>
    if c.toNat < 0x20 then
      ['\\', 'u', '0', '0', Nat.digitChar (c.toNat / 16), Nat.digitChar (c.toNat % 16)]
    else [c]

def stringText (text : String) : List Char :=
  '"' :: (text.toList.flatMap escapeChar ++ ['"'])

/-! ## One line -/

mutual

def compactText : Json → List Char
  | .null => ['n', 'u', 'l', 'l']
  | .bool true => ['t', 'r', 'u', 'e']
  | .bool false => ['f', 'a', 'l', 's', 'e']
  | .number value => value.text
  | .string text => stringText text
  | .array [] => ['[', ']']
  | .array (item :: items) => '[' :: (compactText item ++ compactItems items)
  | .object [] => ['{', '}']
  | .object ((key, value) :: fields) =>
    '{' :: (stringText key ++ ':' :: (compactText value ++ compactFields fields))

def compactItems : List Json → List Char
  | [] => [']']
  | item :: items => ',' :: (compactText item ++ compactItems items)

def compactFields : List (String × Json) → List Char
  | [] => ['}']
  | (key, value) :: fields =>
    ',' :: (stringText key ++ ':' :: (compactText value ++ compactFields fields))

end

def compact (document : Json) : String := String.ofList (compactText document)

/-! ## One item to a line -/

def newLine (level : Nat) : List Char := '\n' :: List.replicate (2 * level) ' '

mutual

def prettyText (level : Nat) : Json → List Char
  | .array (item :: items) =>
    '[' :: (newLine (level + 1) ++ prettyText (level + 1) item ++ prettyItems level items)
  | .object ((key, value) :: fields) =>
    '{' :: (newLine (level + 1) ++ stringText key ++ ':' :: ' ' ::
      (prettyText (level + 1) value ++ prettyFields level fields))
  | .null => ['n', 'u', 'l', 'l']
  | .bool true => ['t', 'r', 'u', 'e']
  | .bool false => ['f', 'a', 'l', 's', 'e']
  | .number value => value.text
  | .string text => stringText text
  | .array [] => ['[', ']']
  | .object [] => ['{', '}']

def prettyItems (level : Nat) : List Json → List Char
  | [] => newLine level ++ [']']
  | item :: items =>
    ',' :: (newLine (level + 1) ++ prettyText (level + 1) item ++ prettyItems level items)

def prettyFields (level : Nat) : List (String × Json) → List Char
  | [] => newLine level ++ ['}']
  | (key, value) :: fields =>
    ',' :: (newLine (level + 1) ++ stringText key ++ ':' :: ' ' ::
      (prettyText (level + 1) value ++ prettyFields level fields))

end

def pretty (document : Json) : String := String.ofList (prettyText 0 document)

end Runbook.Json
