import Runbook.Unicode.CodeSet

/-!
# Code points as bytes

A range of code points falls into pieces whose encodings are products of byte ranges: in each piece
all encodings have the same length, and a byte that varies is followed by bytes that take all their
values.
-/

namespace Runbook.Pattern

open Unicode (CodeRange CodeSet)

structure ByteRange where
  first : Nat
  last : Nat
  deriving DecidableEq, Repr

def encodeCode (code : Nat) : List Nat :=
  let tail (block : Nat) : Nat := 0x80 + code / block % 0x40
  if code ≤ 0x7f then [code]
  else if code ≤ 0x7ff then [0xc0 + code / 0x40, tail 1]
  else if code ≤ 0xffff then [0xe0 + code / 0x1000, tail 0x40, tail 1]
  else [0xf0 + code / 0x40000, tail 0x1000, tail 0x40, tail 1]

def encodeText (text : List Char) : List Nat := text.flatMap fun c => encodeCode c.toNat

def sizeLimits : List Nat := [0x7f, 0x7ff, 0xffff]

def blockSizes : List Nat := [0x40, 0x1000, 0x40000]

/-- Where a range that leaves a block has to be cut: behind a block that it enters in the middle, or
before one that it does not fill. -/
def blockCut? (range : CodeRange) (block : Nat) : Option Nat :=
  if range.first / block = range.last / block then none
  else if range.first % block ≠ 0 then some (range.first - range.first % block + block - 1)
  else if range.last % block ≠ block - 1 then some (range.last - range.last % block - 1)
  else none

def cut? (range : CodeRange) : Option Nat :=
  match sizeLimits.find? fun limit => range.first ≤ limit ∧ limit < range.last with
  | some limit => some limit
  | none => if range.last ≤ 0x7f then none else blockSizes.findSome? (blockCut? range)

def encodePiece (range : CodeRange) : List ByteRange :=
  ((encodeCode range.first).zip (encodeCode range.last)).map fun (first, last) => ⟨first, last⟩

def encodeRange (range : CodeRange) : List (List ByteRange) :=
  match cut? range with
  | none => [encodePiece range]
  | some code =>
    if range.first ≤ code ∧ code < range.last then
      encodeRange ⟨range.first, code⟩ ++ encodeRange ⟨code + 1, range.last⟩
    else [encodePiece range]
  termination_by range.last - range.first

def withoutSurrogates (range : CodeRange) : List CodeRange :=
  [⟨range.first, min range.last 0xd7ff⟩, ⟨max range.first 0xe000, range.last⟩].filter
    fun part => part.first ≤ part.last

def encodeSet (set : CodeSet) : List (List ByteRange) :=
  (set.ranges.flatMap withoutSurrogates).flatMap encodeRange

end Runbook.Pattern
