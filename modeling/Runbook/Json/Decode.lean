import Runbook.Json.Syntax

/-!
# Records in documents

A record is written as an object, or as an array of its fields in order.  A field may be absent
where it has a default; no field may be repeated.  Fields that the record does not have are passed
over, and of their values only the grammar counts.
-/

namespace Runbook.Json

/-- A reader of one value, given how deeply arrays and objects may still be nested. -/
abbrev Reader (α : Type) := Nat → Written → Option α

namespace Written

def namedFields? : List (List TextUnit × Written) → Option (List (String × Written))
  | [] => some []
  | (key, value) :: fields => do
    let name ← stringOf? key
    let fields ← namedFields? fields
    return (name, value) :: fields

def valuesOf (fields : List (String × Written)) (name : String) : List Written :=
  (fields.filter (·.1 = name)).map (·.2)

/-- The value of each named field of an object, if it is there; no name may occur twice. -/
def pickFields? (fields : List (String × Written)) : List String → Option (List (Option Written))
  | [] => some []
  | name :: names => do
    let own ←
      match valuesOf fields name with
      | [] => some none
      | [value] => some (some value)
      | _ => none
    let others ← pickFields? fields names
    return own :: others

def record? (names : List String) (depth : Nat) (written : Written) :
    Option (List (Option Written)) :=
  if depth = 0 then none
  else
    match written with
    | .object fields => do
      let fields ← namedFields? fields
      pickFields? fields names
    | .array items =>
      if items.length ≤ names.length then
        some (items.map some ++ List.replicate (names.length - items.length) none)
      else none
    | _ => none

def optional (default : α) (read : Written → Option α) : Option Written → Option α
  | none => some default
  | some written => read written

def nullable (read : Written → Option α) : Written → Option (Option α)
  | .null => some none
  | written => (read written).map some

def string? : Written → Option String
  | .string units => stringOf? units
  | _ => none

def natural? : Written → Option Nat
  | .number value =>
    match value.toNumber? with
    | some (.int n) => if 0 ≤ n then some n.toNat else none
    | _ => none
  | _ => none

def list? (read : Reader α) : Reader (List α) := fun depth written =>
  match depth, written with
  | depth + 1, .array items => items.mapM (read depth)
  | _, _ => none

/-- An object as a map of documents, in ascending order of its keys; of several values under one key
the last one stays. -/
def map? : Reader (List (String × Json)) := fun depth written =>
  match written with
  | .object fields =>
    match (Written.object fields).meaning? depth with
    | some document =>
      match document.normalize with
      | .object sorted => some sorted
      | _ => none
    | none => none
  | _ => none

end Written

end Runbook.Json
