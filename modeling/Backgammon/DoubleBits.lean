/-!
# DoubleBits — what the bits of a double say

The highest bit is the sign, the eleven after it are the exponent, and the other 52 the fraction.

* `DoubleBits.isNegative`, `DoubleBits.magnitude` — the sign, and all other bits as one number, which
  grows with the magnitude of the double.
* `DoubleBits.rank` — the place of a double among all doubles.
-/

namespace Backgammon.DoubleBits

/-- The number of magnitudes, which is also the value of the sign bit. -/
def magnitudes : Nat := 9223372036854775808

/-- The number of fractions. -/
def fractions : Nat := 4503599627370496

example : magnitudes = 2 ^ 63 ∧ fractions = 2 ^ 52 := by decide

/-- The sign bit is set. -/
def isNegative (x : Float) : Bool := decide (magnitudes ≤ x.toBits.toNat)

/-- All bits but the sign. -/
def magnitude (x : Float) : Nat := x.toBits.toNat % magnitudes

/-- **The place of a double among all doubles**: the negative ones in reverse order first, `-0` right
before `0`, and what is not a number after infinity. -/
def rank (x : Float) : Nat :=
  if isNegative x then magnitudes - 1 - magnitude x else magnitudes + magnitude x

end Backgammon.DoubleBits
