import Backgammon.Scalar
import Mathlib.Algebra.Order.Floor.Ring
import Mathlib.Data.Nat.Log
import Mathlib.Data.Rat.Floor
import Mathlib.Data.Rat.Sqrt

/-!
# Proofs/Exact — the rules read over exact numbers

Exact arithmetic has no square roots and logarithms of its own.  Whoever opens `Exact` gets those among
the rationals.
-/

namespace Backgammon.Exact

/-- Square roots and logarithms among the rationals: roots of squares are exact, other values are
rounded down. -/
scoped instance : RealFunctions Rat where
  sqrt := Rat.sqrt
  log10 x := (Nat.log 10 ⌊x⌋₊ : Nat)

end Backgammon.Exact
