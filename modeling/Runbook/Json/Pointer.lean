import Runbook.Json.Basic
import Runbook.Text.Split

/-!
# Pointers into documents

A pointer is empty or a sequence of tokens, each behind a slash.  In a token `~1` stands for a slash
and `~0` for a tilde.
-/

namespace Runbook.Json

def pointerToken (token : List Char) : String :=
  String.ofList (Text.replacePair '~' '0' '~' (Text.replacePair '~' '1' '/' token))

/-- An array index has no sign and no leading zero. -/
def arrayIndex? (token : String) : Option Nat :=
  match token.toList with
  | '0' :: _ :: _ => none
  | digits => Text.decimalNat? digits

def child? (document : Json) (token : String) : Option Json :=
  match document with
  | .object fields => getField? fields token
  | .array items => do
    let index ← arrayIndex? token
    items[index]?
  | _ => none

def descend? : Json → List String → Option Json
  | document, [] => some document
  | document, token :: tokens => do
    let inner ← child? document token
    descend? inner tokens

def pointer? (document : Json) (pointer : String) : Option Json :=
  match pointer.toList with
  | [] => some document
  | '/' :: rest => descend? document ((Text.pieces '/' rest).map pointerToken)
  | _ => none

end Runbook.Json
