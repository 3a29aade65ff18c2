import Backgammon.DoubleBits

/-!
# Scalar — the numbers in which equities and chances are measured

Every rule of the library is written once, over a type `α` with `[Scalar α]`, and read twice: at
`Float`, where it is the program that runs, rounding and all; and at `Rat`, where the same text is
exact arithmetic, so that laws which rounding would spoil can be stated of it.

* `Scalar` — the operations a rule may use: field operations, decidable order, literals, and the
  three questions only floating point has an interesting answer to (`isNaN`, `isFinite`, `rankLE`).
* `Scalar.min`, `Scalar.max`, `Scalar.clampUnit` — the order operations, with a value that is not a
  number losing against any number.
* `quotient?`, `sampleVariance?` — division and variance where there may be nothing to divide by.
* `RealFunctions` — square root and decimal logarithm, kept apart: the laws over `Rat` hold for
  whatever these are.
-/

namespace Backgammon

/-- **A number type for equities.**  Comparisons are Boolean in effect (`<` and `≤` are decidable)
and false whenever an operand is not a number. -/
class Scalar (α : Type) extends Add α, Sub α, Mul α, Div α, Neg α, BEq α, LT α, LE α, NatCast α,
    OfScientific α where
  [decidableLT : DecidableLT α]
  [decidableLE : DecidableLE α]
  /-- The magnitude of a number. -/
  abs : α → α
  /-- The value is not a number: the result of an undefined operation. -/
  isNaN : α → Bool
  /-- The value is a number and not infinite. -/
  isFinite : α → Bool
  /-- The largest finite double. -/
  largest : α
  /-- The value below every other number, if there is one. -/
  lowest? : Option α
  /-- Ranking of all values, those that are no numbers included: a total preorder that refines `≤`,
  with `-0` below `0`. -/
  rankLE : α → α → Bool

attribute [instance (50)] Scalar.toAdd Scalar.toSub Scalar.toMul Scalar.toDiv Scalar.toNeg
  Scalar.toBEq Scalar.toLT Scalar.toLE Scalar.toNatCast Scalar.toOfScientific
attribute [reducible] Scalar.decidableLT Scalar.decidableLE
attribute [instance (50)] Scalar.decidableLT Scalar.decidableLE

namespace Scalar

variable {α : Type} [Scalar α]

/-- A numeral stands for the count it names. -/
instance (priority := 150) (n : Nat) : OfNat α n := ⟨(n : α)⟩

/-! ## Order operations -/

/-- The smaller of two values; a value that is not a number gives way to the other, and of two equal
values the first is taken. -/
def min (a b : α) : α := if isNaN a then b else if b < a then b else a

/-- The larger of two values; a value that is not a number gives way to the other, and of two equal
values the first is taken. -/
def max (a b : α) : α := if isNaN a then b else if a < b then b else a

/-- The greatest of a nonempty list of values, those that are no numbers passed over; the lowest value
there is when none of them is a number. -/
def maximum (a : α) (rest : List α) : α :=
  let best := rest.foldl max a
  if isNaN best then lowest?.getD best else best

/-- The nearest value in `[0, 1]`. -/
def clampUnit (a : α) : α := if a < 0 then 0 else if 1 < a then 1 else a

/-- `a` is a number with `lo ≤ a ≤ hi`. -/
def within (lo hi a : α) : Bool := decide (lo ≤ a) && decide (a ≤ hi)

/-! ## Quotients and variances -/

/-- The quotient, or nothing when there is nothing to divide by. -/
def quotient? (a b : α) : Option α := if b == 0 then none else some (a / b)

/-- **Sample variance** of `n` observations from their sum and their sum of squares.  Rounding may
take the difference below zero, where the variance is zero. -/
def sampleVariance? (n : Nat) (sum sumSq : α) : Option α :=
  if n < 2 then none else
    let n : α := n
    some (max 0 ((sumSq - sum * sum / n) / (n - 1)))

end Scalar

/-- Square root and decimal logarithm. -/
class RealFunctions (α : Type) where
  sqrt : α → α
  log10 : α → α

/-! ## The two readings -/

/-- Double precision arithmetic. -/
instance : Scalar Float where
  toNatCast := ⟨Float.ofNat⟩
  abs := Float.abs
  isNaN := Float.isNaN
  isFinite := Float.isFinite
  largest := 17976931348623157e292
  lowest? := some (-1 / 0)
  rankLE x y := DoubleBits.rank x ≤ DoubleBits.rank y

instance : RealFunctions Float where
  sqrt := Float.sqrt
  log10 := Float.log10

/-- Exact arithmetic: every value is a finite number. -/
instance : Scalar Rat where
  abs x := if x < 0 then -x else x
  isNaN _ := false
  isFinite _ := true
  largest := 17976931348623157e292
  lowest? := none
  rankLE x y := x ≤ y

end Backgammon
