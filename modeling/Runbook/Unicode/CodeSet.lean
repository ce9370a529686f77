/-!
# Sets of code points

A set of code points is an ascending list of ranges that neither meet nor touch.  The surrogates are
no characters: the character behind `D7FF` is `E000`.  Tables are written as rows of hexadecimal
items.
-/

namespace Runbook.Unicode

structure CodeRange where
  first : Nat
  last : Nat
  deriving DecidableEq, Repr

namespace CodeRange

def single (code : Nat) : CodeRange := ⟨code, code⟩

def between (a b : Nat) : CodeRange := ⟨min a b, max a b⟩

def contains (range : CodeRange) (code : Nat) : Bool :=
  range.first ≤ code && code ≤ range.last

def meet? (a b : CodeRange) : Option CodeRange :=
  if max a.first b.first ≤ min a.last b.last then
    some ⟨max a.first b.first, min a.last b.last⟩
  else none

end CodeRange

structure CodeSet where
  ranges : List CodeRange
  deriving DecidableEq, Repr

namespace CodeSet

def lastCode : Nat := 0x10ffff

def empty : CodeSet := ⟨[]⟩

def all : CodeSet := ⟨[⟨0, lastCode⟩]⟩

def single (code : Nat) : CodeSet := ⟨[.single code]⟩

def contains (set : CodeSet) (code : Nat) : Bool := set.ranges.any (·.contains code)

/-! ## Unions -/

/-- Joins ranges that meet or touch; the given ones ascend by their first code points. -/
def joinFrom (current : CodeRange) : List CodeRange → List CodeRange
  | [] => [current]
  | range :: rest =>
    if range.first ≤ current.last + 1 then
      joinFrom ⟨current.first, max current.last range.last⟩ rest
    else current :: joinFrom range rest

def ofRanges (ranges : List CodeRange) : CodeSet :=
  match ranges.mergeSort (fun a b => decide (a.first ≤ b.first)) with
  | [] => empty
  | range :: rest => ⟨joinFrom range rest⟩

def unions (sets : List CodeSet) : CodeSet := ofRanges (sets.flatMap (·.ranges))

def union (a b : CodeSet) : CodeSet := ofRanges (a.ranges ++ b.ranges)

/-! ## Complements -/

def nextCode (code : Nat) : Nat := if code = 0xd7ff then 0xe000 else code + 1

def previousCode (code : Nat) : Nat := if code = 0xe000 then 0xd7ff else code - 1

def gapsBehind (range : CodeRange) : List CodeRange → List (Nat × Nat)
  | [] => if range.last < lastCode then [(nextCode range.last, lastCode)] else []
  | next :: rest => (nextCode range.last, previousCode next.first) :: gapsBehind next rest

/-- The first and the last character of each gap.  A gap of surrogates only has no characters: its
bounds are then `E000` and `D7FF`. -/
def gaps (set : CodeSet) : List (Nat × Nat) :=
  match set.ranges with
  | [] => [(0, lastCode)]
  | range :: rest =>
    if 0 < range.first then (0, previousCode range.first) :: gapsBehind range rest
    else gapsBehind range rest

def complement (set : CodeSet) : CodeSet := ⟨set.gaps.map fun (a, b) => .between a b⟩

def complementIf (set : CodeSet) (negated : Bool) : CodeSet :=
  if negated then set.complement else set

/-! ## Intersections and differences -/

def meets : List CodeRange → List CodeRange → List CodeRange
  | [], _ => []
  | _, [] => []
  | a :: as, b :: bs =>
    let rest := if a.last < b.last then meets as (b :: bs) else meets (a :: as) bs
    match a.meet? b with
    | some range => range :: rest
    | none => rest
  termination_by as bs => as.length + bs.length

def intersection (a b : CodeSet) : CodeSet := ⟨meets a.ranges b.ranges⟩

def difference (a b : CodeSet) : CodeSet :=
  a.intersection ⟨(b.gaps.filter fun (first, last) => first ≤ last).map fun (first, last) =>
    ⟨first, last⟩⟩

def symmetricDifference (a b : CodeSet) : CodeSet := (a.union b).difference (a.intersection b)

/-! ## Tables -/

def hexValue (digit : Char) : Nat :=
  if digit.isDigit then digit.toNat - 48 else digit.toNat - 55

def readCode (digits : List Char) : Nat :=
  digits.foldl (fun code digit => 16 * code + hexValue digit) 0

def every (first last step : Nat) : List Nat :=
  (List.range ((last - first) / step + 1)).map fun index => first + index * step

/-- Reads an item: `5F` is a code point, `30-39` a range, and `100-12E/2` every second code point of
a range. -/
def readItem (item : List Char) : List CodeRange :=
  let first := readCode (item.takeWhile (· != '-'))
  match item.dropWhile (· != '-') with
  | [] => [.single first]
  | _ :: rest =>
    let last := readCode (rest.takeWhile (· != '/'))
    match rest.dropWhile (· != '/') with
    | [] => [⟨first, last⟩]
    | _ :: step => (every first last (readCode step)).map .single

def read (rows : List String) : CodeSet :=
  ⟨(rows.flatMap (·.splitOn " ")).flatMap fun item => readItem item.toList⟩

def adjusted (set : CodeSet) (added removed : List String) : CodeSet :=
  (set.union (.read added)).difference (.read removed)

end CodeSet

structure NamedSet where
  names : List String
  set : CodeSet

namespace NamedSet

def find? (table : List NamedSet) (name : String) : Option CodeSet :=
  (table.find? (·.names.contains name)).map (·.set)

end NamedSet

end Runbook.Unicode
