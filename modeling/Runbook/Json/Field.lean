import Runbook.Json.Pointer

/-!
# Fields of documents

A field is named by the keys that lead to it, joined by dots.  Fields are read through a pointer and
written by walking down the keys, where objects are made on the way when nothing is there.
-/

namespace Runbook.Json

inductive FieldError where
  | outsideObject (path part : String)
  | notAnArray (path : String)
  deriving DecidableEq

def FieldError.message : FieldError → String
  | .outsideObject path part =>
    "Cannot reach " ++ path ++ ": " ++ part ++ " is not inside an object"
  | .notAnArray path => "Field " ++ path ++ " is not an array"

def fieldParts (path : String) : List String := Text.split '.' path

/-- The pointer of a dotted path; a path that begins with a slash is a pointer already. -/
def fieldPointer (path : String) : String :=
  match path.toList with
  | '/' :: _ => path
  | characters => String.ofList ('/' :: characters.map fun c => if c = '.' then '/' else c)

def readField? (document : Json) (path : String) : Option Json :=
  pointer? document (fieldPointer path)

def updateAt (path : String) (change : Json → Except FieldError Json) :
    List String → Json → Except FieldError Json
  | [], document => change document
  | part :: parts, document =>
    match document with
    | .null => do
      let value ← updateAt path change parts .null
      return .object [(part, value)]
    | .object fields => do
      let value ← updateAt path change parts ((getField? fields part).getD .null)
      return .object (setField fields part value)
    | _ => throw (.outsideObject path part)

def updateField (document : Json) (path : String) (change : Json → Except FieldError Json) :
    Except FieldError Json :=
  updateAt path change (fieldParts path) document

def setFields (document : Json) (assignments : List (String × Json)) : Except FieldError Json :=
  assignments.foldlM (fun document (path, value) => document.updateField path fun _ => .ok value)
    document

def pushItem (path : String) (value : Json) : Json → Except FieldError Json
  | .null => .ok (.array [value])
  | .array items => .ok (.array (items ++ [value]))
  | _ => .error (.notAnArray path)

/-- Appends to an array field, which is made when nothing is there. -/
def appendToField (document : Json) (path : String) (value : Json) : Except FieldError Json :=
  document.updateField path (pushItem path value)

end Runbook.Json
