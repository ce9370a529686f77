import Runbook.Decimal.Binary64

/-!
# Documents

JSON documents.  Whole numbers that fit 64 bits stay whole numbers, all others are doubles.  The
fields of an object are kept in ascending order of their keys, each key once; `Sorted` says so.
-/

namespace Runbook

open Decimal

inductive Json.Number where
  | int (value : Int)
  | double (value : Binary64)
  deriving DecidableEq

inductive Json where
  | null
  | bool (value : Bool)
  | number (value : Json.Number)
  | string (text : String)
  | array (items : List Json)
  | object (fields : List (String × Json))
  deriving Inhabited

namespace Json

/-- A whole number and a double are never equal; two doubles are equal when their values are. -/
def Number.same : Number → Number → Bool
  | .int a, .int b => a == b
  | .double a, .double b => a.sameValue b
  | _, _ => false

mutual

/-- Equality of documents, up to the sign of zero. -/
def same : Json → Json → Bool
  | .null, .null => true
  | .bool a, .bool b => a == b
  | .number a, .number b => a.same b
  | .string a, .string b => a == b
  | .array a, .array b => sameItems a b
  | .object a, .object b => sameFields a b
  | _, _ => false

def sameItems : List Json → List Json → Bool
  | [], [] => true
  | a :: as, b :: bs => same a b && sameItems as bs
  | _, _ => false

def sameFields : List (String × Json) → List (String × Json) → Bool
  | [], [] => true
  | (key, a) :: as, (otherKey, b) :: bs => key == otherKey && same a b && sameFields as bs
  | _, _ => false

end

/-! ## Fields of an object -/

def getField? (fields : List (String × α)) (key : String) : Option α :=
  match fields with
  | [] => none
  | (name, value) :: rest => if name = key then some value else getField? rest key

def setField (fields : List (String × α)) (key : String) (value : α) : List (String × α) :=
  match fields with
  | [] => [(key, value)]
  | (name, old) :: rest =>
    if name = key then (key, value) :: rest
    else if key < name then (key, value) :: (name, old) :: rest
    else (name, old) :: setField rest key value

def objectOf (fields : List (String × Json)) : Json :=
  .object (fields.foldl (fun sorted field => setField sorted field.1 field.2) [])

def field? : Json → String → Option Json
  | .object fields, key => getField? fields key
  | _, _ => none

mutual

def Sorted : Json → Prop
  | .array items => SortedItems items
  | .object fields => fields.Pairwise (fun a b => a.1 < b.1) ∧ SortedFields fields
  | _ => True

def SortedItems : List Json → Prop
  | [] => True
  | item :: items => Sorted item ∧ SortedItems items

def SortedFields : List (String × Json) → Prop
  | [] => True
  | (_, value) :: fields => Sorted value ∧ SortedFields fields

end

mutual

def normalize : Json → Json
  | .array items => .array (normalizeItems items)
  | .object fields => objectOf (normalizeFields fields)
  | other => other

def normalizeItems : List Json → List Json
  | [] => []
  | item :: items => normalize item :: normalizeItems items

def normalizeFields : List (String × Json) → List (String × Json)
  | [] => []
  | (key, value) :: fields => (key, normalize value) :: normalizeFields fields

end

end Json

end Runbook
