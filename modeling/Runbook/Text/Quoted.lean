import Runbook.Unicode.Later

/-!
# Quoted text

A text between double quotes in which every character can be seen.  Quotes and backslashes are
escaped, control characters have their short escape where there is one, and every other character
that is unassigned, invisible or joined to the one before it is written as its code point in
braces.
-/

namespace Runbook.Text

def isPrintable (c : Char) : Bool :=
  let code := c.toNat
  if code < 0x7f then 0x20 ≤ code
  else if code < 0xa0 then false
  else !Unicode.invisible.contains code && !Unicode.laterGraphemeExtend.contains code

/-- The code point in braces, `\u\x7b301\x7d` for the combining acute. -/
def codePointEscape (c : Char) : List Char :=
  '\\' :: 'u' :: '{' :: (Nat.toDigits 16 c.toNat ++ ['}'])

def escapeChar (c : Char) : List Char :=
  match c with
  | '"' => ['\\', '"']
  | '\\' => ['\\', '\\']
  | '\n' => ['\\', 'n']
  | '\r' => ['\\', 'r']
  | '\t' => ['\\', 't']
  | '\x00' => ['\\', '0']
  | c => if isPrintable c then [c] else codePointEscape c

def quote (text : String) : String :=
  String.ofList ('"' :: (text.toList.flatMap escapeChar ++ ['"']))

end Runbook.Text
