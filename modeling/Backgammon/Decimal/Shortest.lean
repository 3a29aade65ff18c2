import Backgammon.DoubleBits

/-!
# Decimal/Shortest — the shortest decimal that reads back as a given double

A double stands for the interval of reals that round to it.  Among the decimal grids `10 ^ g · ℤ`,
coarse to fine, the first with a point in that interval gives the text with fewest digits; if the
interval lies between two neighbouring points of the grid that are both inside, the nearer one is
taken, and the upper one when they are equally near.

* `Binary` — a positive double as mantissa and exponent, with the width of its interval.
* `Binary.gridPoint?` — the point of a grid in the interval, in exact natural arithmetic.
* `text` — positional notation, never an exponent, no point after a whole number.
-/

namespace Backgammon.Decimal

/-- **A positive double** `mantissa · 2 ^ exponent`, with the distance to the end of its interval
below, in quarters of a unit in the last place; above it is always two quarters. -/
structure Binary where
  mantissa : Nat
  exponent : Int
  below : Nat

namespace Binary

/-- The positive double of the given bits (sign bit clear, finite, not zero).  Below a power of two
the doubles are twice as dense. -/
def ofBits (bits : Nat) : Binary :=
  let biased : Nat := bits / DoubleBits.fractions
  let fraction := bits % DoubleBits.fractions
  if biased = 0 then ⟨fraction, -1074, 2⟩
  else ⟨DoubleBits.fractions + fraction, (biased : Int) - 1075, if fraction = 0 then 1 else 2⟩

/-- The ends of the interval belong to it when the mantissa is even: rounding goes to even. -/
def endsIncluded (b : Binary) : Bool := b.mantissa % 2 == 0

/-- **The point of the grid `10 ^ g · ℤ` in the interval of `b`**, as a multiple of `10 ^ g`.  All
numbers are scaled by one common denominator, so that the arithmetic is exact. -/
def gridPoint? (b : Binary) (g : Int) : Option Nat :=
  let unit := Nat.pow 2 (b.exponent - 2).toNat * Nat.pow 10 (-g).toNat
  let step := Nat.pow 2 (2 - b.exponent).toNat * Nat.pow 10 g.toNat
  let value := 4 * b.mantissa * unit
  let low := (4 * b.mantissa - b.below) * unit
  let high := (4 * b.mantissa + 2) * unit
  let inside (n : Nat) : Bool :=
    if b.endsIncluded then decide (low ≤ n * step ∧ n * step ≤ high)
    else decide (low < n * step ∧ n * step < high)
  let n := value / step
  match inside n, inside (n + 1) with
  | true, true => if value - n * step < (n + 1) * step - value then some n else some (n + 1)
  | true, false => some n
  | false, true => some (n + 1)
  | false, false => none

/-- An exponent of ten above the value. -/
def decimalCeiling (b : Binary) : Int :=
  (((b.mantissa.log2 : Int) + 1 + b.exponent) * 30103).fdiv 100000 + 1

/-- **The shortest decimal in the interval**, `digits · 10 ^ exponent`: the point found on the
coarsest grid that has one.  Seventeen digits always suffice, so twenty grids are enough. -/
def shortest (b : Binary) : Nat × Int :=
  let top := b.decimalCeiling
  let grids := (List.range 20).map fun (i : Nat) => top - (i : Int)
  (grids.findSome? fun g => (b.gridPoint? g).map fun n => (n, g)).getD (0, 0)

end Binary

/-- `digits · 10 ^ exponent` in positional notation. -/
def positional (digits : Nat) (exponent : Int) : String :=
  let ds := Nat.toDigits 10 digits
  if 0 ≤ exponent then String.ofList (ds ++ List.replicate exponent.toNat '0')
  else
    let places := (-exponent).toNat
    let padded := List.replicate (places + 1 - ds.length) '0' ++ ds
    let whole := padded.length - places
    String.ofList (padded.take whole ++ '.' :: padded.drop whole)

/-- **The text of a double.**  The sign of zero is kept. -/
def text (x : Float) : String :=
  if x.isNaN then "NaN"
  else
    let magnitude := DoubleBits.magnitude x
    let body :=
      if magnitude = 0 then "0"
      else if x.isFinite then
        let (digits, exponent) := (Binary.ofBits magnitude).shortest
        positional digits exponent
      else "inf"
    if DoubleBits.isNegative x then "-" ++ body else body

end Backgammon.Decimal
