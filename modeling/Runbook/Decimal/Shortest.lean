import Runbook.Decimal.Binary64

/-!
# Shortest decimal digits

A positive double stands for all reals that round to it.  Among the decimals in that interval the
ones with the fewest digits are taken, and of those the nearest one; a tie goes to the even digit.
-/

namespace Runbook.Decimal

structure Scaled where
  digits : Nat
  exponent : Int
  deriving DecidableEq, Repr

structure Interval where
  low : Nat
  value : Nat
  high : Nat
  exponent : Int
  closed : Bool

def Interval.of (x : Binary64) : Interval :=
  let m := x.significand
  let narrow := m == Nat.pow 2 52 && x.exponent != Binary64.leastExponent
  ⟨4 * m - (if narrow then 1 else 2), 4 * m, 4 * m + 2, x.exponent - 2, m % 2 == 0⟩

/-- The interval's numbers over one grid step `10 ^ exponent`, brought to whole numbers: the value
of `2 ^ binary` and of `10 ^ exponent` in common units. -/
def units (binary exponent : Int) : Nat × Nat :=
  (Nat.pow 2 binary.toNat * Nat.pow 10 (-exponent).toNat,
    Nat.pow 2 (-binary).toNat * Nat.pow 10 exponent.toNat)

def gridPoint? (interval : Interval) (exponent : Int) : Option Nat :=
  let (unit, step) := units interval.exponent exponent
  let value := interval.value * unit
  let inside (point : Nat) : Bool :=
    if interval.closed then
      interval.low * unit ≤ point * step && point * step ≤ interval.high * unit
    else
      interval.low * unit < point * step && point * step < interval.high * unit
  let below := value / step
  let remainder := value % step
  match inside below, inside (below + 1) with
  | true, true =>
    if 2 * remainder < step then some below
    else if step < 2 * remainder then some (below + 1)
    else some (if below % 2 == 0 then below else below + 1)
  | true, false => some below
  | false, true => some (below + 1)
  | false, false => none

def leadingExponent (interval : Interval) : Nat → Int → Int
  | 0, guess => guess
  | fuel + 1, guess =>
    let (unit, step) := units interval.exponent (guess + 1)
    if step ≤ interval.value * unit then leadingExponent interval fuel (guess + 1) else guess

def Scaled.trim : Nat → Scaled → Scaled
  | 0, d => d
  | fuel + 1, d =>
    if d.digits % 10 == 0 && d.digits != 0 then trim fuel ⟨d.digits / 10, d.exponent + 1⟩ else d

def searchGrid (interval : Interval) : Nat → Int → Scaled
  | 0, exponent => ⟨0, exponent⟩
  | count + 1, exponent =>
    match gridPoint? interval exponent with
    | some point =>
      if point = 0 then searchGrid interval count (exponent - 1) else ⟨point, exponent⟩
    | none => searchGrid interval count (exponent - 1)

def shortest (x : Binary64) : Scaled :=
  let interval := Interval.of x
  let bits : Int := (interval.value.log2 : Int) + interval.exponent
  let guess := bits * 30103 / 100000 - 2
  let leading := leadingExponent interval 8 guess
  Scaled.trim 20 (searchGrid interval 18 leading)

end Runbook.Decimal
