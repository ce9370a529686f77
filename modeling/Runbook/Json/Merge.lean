import Runbook.Json.Basic

/-!
# Merging documents

Objects are merged field by field, an array gains the items it does not have yet, and of anything
else the right one is taken.
-/

namespace Runbook.Json

def addMissing (items : List Json) (more : List Json) : List Json :=
  more.foldl (fun items item => if items.any (same · item) then items else items ++ [item]) items

mutual

def merge (left : Json) : Json → Json
  | .object right =>
    match left with
    | .object left => .object (mergeFields left right)
    | _ => .object right
  | .array right =>
    match left with
    | .array left => .array (addMissing left right)
    | _ => .array right
  | right => right

def mergeFields (left : List (String × Json)) : List (String × Json) → List (String × Json)
  | [] => left
  | (key, value) :: right =>
    let merged :=
      match getField? left key with
      | some existing => merge existing value
      | none => value
    mergeFields (setField left key merged) right

end

end Runbook.Json
