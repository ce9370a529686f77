import Runbook.Json.Printer

/-!
# Values

What a variable of a rule can be.  Values can be compared and ordered, so there are no doubles and
no objects among them; a document's number that fits no word becomes its text, and an object becomes
the sorted list of its fields.
-/

namespace Runbook

inductive Value where
  | null
  | bool (value : Bool)
  | int (value : Int64)
  | str (text : String)
  | list (items : List Value)
  deriving Inhabited

namespace Value

/-! ## Equality and order -/

mutual

def decideEq : (a b : Value) → Decidable (a = b)
  | .null, .null => .isTrue rfl
  | .bool a, .bool b => decidable_of_iff (a = b) (by simp)
  | .int a, .int b => decidable_of_iff (a = b) (by simp)
  | .str a, .str b => decidable_of_iff (a = b) (by simp)
  | .list a, .list b =>
    match decideEqList a b with
    | .isTrue same => .isTrue (by rw [same])
    | .isFalse different => .isFalse (by simpa using different)
  | .null, .bool _ | .null, .int _ | .null, .str _ | .null, .list _ => .isFalse (by simp)
  | .bool _, .null | .bool _, .int _ | .bool _, .str _ | .bool _, .list _ => .isFalse (by simp)
  | .int _, .null | .int _, .bool _ | .int _, .str _ | .int _, .list _ => .isFalse (by simp)
  | .str _, .null | .str _, .bool _ | .str _, .int _ | .str _, .list _ => .isFalse (by simp)
  | .list _, .null | .list _, .bool _ | .list _, .int _ | .list _, .str _ => .isFalse (by simp)

def decideEqList : (as bs : List Value) → Decidable (as = bs)
  | [], [] => .isTrue rfl
  | a :: as, b :: bs =>
    match decideEq a b, decideEqList as bs with
    | .isTrue head, .isTrue tail => .isTrue (by rw [head, tail])
    | .isFalse head, _ => .isFalse (by simp [head])
    | _, .isFalse tail => .isFalse (by simp [tail])
  | [], _ :: _ => .isFalse (by simp)
  | _ :: _, [] => .isFalse (by simp)

end

instance : DecidableEq Value := decideEq

def rank : Value → Nat
  | .null => 0
  | .bool _ => 1
  | .int _ => 2
  | .str _ => 3
  | .list _ => 4

mutual

/-- Shapes first, then contents; lists are compared item by item and a shorter one comes first. -/
def compare : Value → Value → Ordering
  | .bool a, .bool b => Ord.compare a b
  | .int a, .int b => Ord.compare a.toInt b.toInt
  | .str a, .str b => compareOfLessAndEq a b
  | .list a, .list b => compareLists a b
  | a, b => Ord.compare a.rank b.rank

def compareLists : List Value → List Value → Ordering
  | [], [] => .eq
  | [], _ :: _ => .lt
  | _ :: _, [] => .gt
  | a :: as, b :: bs =>
    match compare a b with
    | .eq => compareLists as bs
    | different => different

end

instance : Ord Value := ⟨compare⟩

def sort (values : List Value) : List Value :=
  values.mergeSort fun a b => compare a b != .gt

/-! ## Shape -/

def isNull : Value → Bool
  | .null => true
  | _ => false

def bool? : Value → Option Bool
  | .bool value => some value
  | _ => none

def int? : Value → Option Int64
  | .int value => some value
  | _ => none

def str? : Value → Option String
  | .str text => some text
  | _ => none

def list? : Value → Option (List Value)
  | .list items => some items
  | _ => none

def kind : Value → String
  | .null => "null"
  | .bool _ => "bool"
  | .int _ => "int"
  | .str _ => "string"
  | .list _ => "list"

/-! ## Text -/

mutual

def displayText : Value → List Char
  | .null => ['n', 'u', 'l', 'l']
  | .bool true => ['t', 'r', 'u', 'e']
  | .bool false => ['f', 'a', 'l', 's', 'e']
  | .int value => Json.intText value.toInt
  | .str text => '"' :: (text.toList ++ ['"'])
  | .list [] => ['[', ']']
  | .list (item :: items) => '[' :: (displayText item ++ displayItems items)

def displayItems : List Value → List Char
  | [] => [']']
  | item :: items => ',' :: ' ' :: (displayText item ++ displayItems items)

end

/-- The text of a value: strings stand between quotes but nothing in them is escaped. -/
def display (value : Value) : String := String.ofList (displayText value)

instance : ToString Value := ⟨display⟩

/-! ## Values and documents -/

def ofInt? (value : Int) : Option Int64 :=
  if Int64.minValue.toInt ≤ value ∧ value ≤ Int64.maxValue.toInt then some (.ofInt value) else none

/-- A count; one that fits no word counts as the greatest word. -/
def ofNat (count : Nat) : Value := .int ((ofInt? count).getD Int64.maxValue)

def ofNumber (number : Json.Number) : Value :=
  match number with
  | .int value =>
    match ofInt? value with
    | some word => .int word
    | none => .str (String.ofList number.text)
  | .double _ => .str (String.ofList number.text)

def ofField (field : String × Json) : Value :=
  .str (field.1 ++ "=" ++ Json.compact field.2)

mutual

def ofJson : Json → Value
  | .null => .null
  | .bool value => .bool value
  | .number number => ofNumber number
  | .string text => .str text
  | .array items => .list (ofItems items)
  | .object fields => .list (sort (fields.map ofField))

def ofItems : List Json → List Value
  | [] => []
  | item :: items => ofJson item :: ofItems items

end

def ofJson? : Option Json → Value
  | some document => ofJson document
  | none => .null

mutual

/-- Reads a document as a value without any conversion; objects, doubles and numbers that fit no
word are refused. -/
def read? : Json → Option Value
  | .null => some .null
  | .bool value => some (.bool value)
  | .number (.int value) => (ofInt? value).map .int
  | .number (.double _) => none
  | .string text => some (.str text)
  | .array items => (readItems? items).map .list
  | .object _ => none

def readItems? : List Json → Option (List Value)
  | [] => some []
  | item :: items => do
    let item ← read? item
    let items ← readItems? items
    return item :: items

end

mutual

def toJson : Value → Json
  | .null => .null
  | .bool value => .bool value
  | .int value => .number (.int value.toInt)
  | .str text => .string text
  | .list items => .array (itemsToJson items)

def itemsToJson : List Value → List Json
  | [] => []
  | item :: items => toJson item :: itemsToJson items

end

end Value

end Runbook
