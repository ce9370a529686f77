/-!
# Binary floating point

A finite double is a sign, a significand below `2 ^ 53` and an exponent of two that is at least
`-1074`.  The significand is as large as these bounds allow, so every nonzero value has one form.
Results that fit no double are refused, never infinite.
-/

namespace Runbook.Decimal

structure Binary64 where
  negative : Bool
  significand : Nat
  exponent : Int
  deriving DecidableEq, Repr

namespace Binary64

def leastExponent : Int := -1074

def greatestExponent : Int := 971

def zero (negative : Bool) : Binary64 := ⟨negative, 0, leastExponent⟩

def isZero (x : Binary64) : Bool := x.significand == 0

def sameValue (x y : Binary64) : Bool :=
  (x.isZero && y.isZero) || x == y

def withSign (negative : Bool) (x : Binary64) : Binary64 := { x with negative }

def scaled (numerator denominator : Nat) (exponent : Int) : Nat × Nat :=
  if 0 ≤ exponent then (numerator, denominator * Nat.pow 2 exponent.toNat)
  else (numerator * Nat.pow 2 (-exponent).toNat, denominator)

def roundHalfEven (numerator denominator : Nat) : Nat :=
  let quotient := numerator / denominator
  let double := 2 * (numerator % denominator)
  if denominator < double || (double == denominator && quotient % 2 == 1) then quotient + 1
  else quotient

/-- The exponent under which a fraction's whole part has 53 bits, or the least one. -/
def exponentOf (numerator denominator : Nat) : Int :=
  let guess := (numerator.log2 : Int) - denominator.log2 - 53
  let (p, q) := scaled numerator denominator guess
  max (if p / q < Nat.pow 2 53 then guess else guess + 1) leastExponent

def ofRatio? (numerator denominator : Nat) : Option Binary64 :=
  if numerator = 0 then some (zero false)
  else
    let exponent := exponentOf numerator denominator
    let (p, q) := scaled numerator denominator exponent
    let rounded := roundHalfEven p q
    let (significand, exponent) :=
      if rounded = Nat.pow 2 53 then (Nat.pow 2 52, exponent + 1) else (rounded, exponent)
    if greatestExponent < exponent then none else some ⟨false, significand, exponent⟩

def ofNat? (n : Nat) : Option Binary64 := ofRatio? n 1

def mul? (x y : Binary64) : Option Binary64 :=
  let (p, q) := scaled (x.significand * y.significand) 1 (-(x.exponent + y.exponent))
  ofRatio? p q

def div? (x y : Binary64) : Option Binary64 :=
  let (p, q) := scaled x.significand y.significand (-(x.exponent - y.exponent))
  ofRatio? p q

end Binary64

end Runbook.Decimal
