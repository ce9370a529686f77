import Runbook.Text.Blank

/-!
# Keys

Keys name the places of an order.  A key is a name, a generated one, or stands right before or right
after another key.  Keys have a text form, which is read back without regard to case; a generated
key's text begins with a hash sign and is never read back as such.
-/

namespace Runbook

/-! ## Identifiers -/

/-- What stands behind a generated key: an identifier known from elsewhere, or the running number of
a key that an order made itself. -/
inductive KeyId where
  | given (bits : BitVec 128)
  | fresh (index : Nat)
  deriving DecidableEq, Repr

namespace KeyId

inductive ReadError where
  | invalidLength
  | invalidCharacter
  deriving DecidableEq, Repr

def ReadError.message : ReadError → String
  | .invalidLength => "invalid length"
  | .invalidCharacter => "invalid character"

def textLength : Nat := 26

def alphabet : List Char :=
  ['0', '1', '2', '3', '4', '5', '6', '7', '8', '9', 'A', 'B', 'C', 'D', 'E', 'F', 'G', 'H', 'J',
    'K', 'M', 'N', 'P', 'Q', 'R', 'S', 'T', 'V', 'W', 'X', 'Y', 'Z']

def digitChar (digit : Nat) : Char := alphabet.getD (digit % 32) '0'

def digitValue? (c : Char) : Option Nat := alphabet.idxOf? c.toUpper

def digits : Nat → Nat → List Char
  | 0, _ => []
  | count + 1, value => digits count (value / 32) ++ [digitChar value]

def number : KeyId → Nat
  | .given bits => bits.toNat
  | .fresh index => index

def display (id : KeyId) : String := String.ofList (digits textLength id.number)

def readDigits? (text : List Char) : Option Nat :=
  text.foldlM (fun total c => (digitValue? c).map (total * 32 + ·)) 0

/-- Reads an identifier; of a number that is too large the high bits are lost. -/
def read (text : String) : Except ReadError KeyId :=
  if text.utf8ByteSize ≠ textLength then .error .invalidLength
  else
    match readDigits? text.toList with
    | some value => .ok (.given (.ofNat 128 value))
    | none => .error .invalidCharacter

def compare : KeyId → KeyId → Ordering
  | .given a, .given b => Ord.compare a.toNat b.toNat
  | .given _, .fresh _ => .lt
  | .fresh _, .given _ => .gt
  | .fresh a, .fresh b => Ord.compare a b

end KeyId

/-! ## Keys -/

inductive Key where
  | unique (id : KeyId)
  | constant (name : String)
  | pre (base : Key)
  | post (base : Key)
  deriving DecidableEq, Repr, Inhabited

namespace Key

def rank : Key → Nat
  | .unique _ => 0
  | .constant _ => 1
  | .pre _ => 2
  | .post _ => 3

/-- Generated keys come first, then names, then keys before and keys after others. -/
def compare : Key → Key → Ordering
  | .unique a, .unique b => a.compare b
  | .constant a, .constant b => compareOfLessAndEq a b
  | .pre a, .pre b => compare a b
  | .post a, .post b => compare a b
  | a, b => Ord.compare a.rank b.rank

instance : Ord Key := ⟨compare⟩

def displayText : Key → List Char
  | .unique id => '#' :: id.display.toList
  | .constant name => name.toList
  | .pre base => 'p' :: 'r' :: 'e' :: ':' :: displayText base
  | .post base => 'p' :: 'o' :: 's' :: 't' :: ':' :: displayText base

def display (key : Key) : String := String.ofList (displayText key)

instance : ToString Key := ⟨display⟩

/-! ## Reading -/

/-- Characters that agree with a small letter of the words "pre" and "post" up to case: the letter,
its capital, and for `s` also the long s. -/
def agreesWith (letter c : Char) : Bool :=
  c == letter || c == letter.toUpper || (letter == 's' && c == 'ſ')

def isPreWord (a b c : Char) : Bool :=
  agreesWith 'p' a && agreesWith 'r' b && agreesWith 'e' c

def isPostWord (a b c d : Char) : Bool :=
  agreesWith 'p' a && agreesWith 'o' b && agreesWith 's' c && agreesWith 't' d

def isSeparator (c : Char) : Bool := c == '-' || c == ':' || c == ' '

def isBody (text : List Char) : Bool := !text.isEmpty && !text.contains '\n'

/-- Reads a key, or says which part of the text is blank. -/
def parseText (text : List Char) : Except (List Char) Key :=
  if text.all Text.isBlank then .error text
  else
    match text with
    | a :: b :: c :: d :: rest =>
      if isPreWord a b c && isSeparator d && isBody rest then (parseText rest).map .pre
      else
        match rest with
        | e :: rest =>
          if isPostWord a b c d && isSeparator e && isBody rest then (parseText rest).map .post
          else .ok (.constant (String.ofList text))
        | [] => .ok (.constant (String.ofList text))
    | _ => .ok (.constant (String.ofList text))

end Key

end Runbook
