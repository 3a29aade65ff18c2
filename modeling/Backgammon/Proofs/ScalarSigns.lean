import Backgammon.Proofs.Doubles.Products
import Backgammon.Proofs.ScalarOrder

/-!
# Proofs/ScalarSigns — signs and multiples in the order of numbers

A rule that grades values looks at their signs and magnitudes, and may scale them first.  Zero comes with
two signs and a multiple may be rounded to infinity, but the order survives.  Since a comparison holds of
numbers only, no rule about comparisons that hold has to ask whether its values are numbers.

* `Scalar.LawfulSign` — the laws, which hold of doubles as they do of exact numbers.
* `Scalar.le_of_le_of_le`, `Scalar.lt_of_lt_of_le`, `Scalar.lt_of_le_of_lt` — comparisons in a row.
-/

namespace Backgammon

/-- **The laws of signs and multiples** in the order of numbers. -/
class Scalar.LawfulSign (α : Type) [Scalar α] : Prop extends Scalar.LawfulOrder α where
  numbers_of_le : ∀ {x y : α}, x ≤ y → isNaN x = false ∧ isNaN y = false
  numbers_of_lt : ∀ {x y : α}, x < y → isNaN x = false ∧ isNaN y = false
  numbers_of_beq : ∀ {x y : α}, (x == y) = true → isNaN x = false ∧ isNaN y = false
  neg_le_neg : ∀ {x y : α}, x ≤ y → -y ≤ -x
  abs_beq_zero : ∀ {x : α}, (x == 0) = true → (abs x == 0) = true
  mul_ten_le : ∀ {x y : α}, x ≤ y → x * 10 ≤ y * 10

instance : Scalar.LawfulSign Rat where
  numbers_of_le _ := ⟨rfl, rfl⟩
  numbers_of_lt _ := ⟨rfl, rfl⟩
  numbers_of_beq _ := ⟨rfl, rfl⟩
  neg_le_neg := Rat.neg_le_neg
  abs_beq_zero {x} zero := by
    obtain rfl := beq_iff_eq.1 zero
    rfl
  mul_ten_le le := Rat.mul_le_mul_of_nonneg_right le (by decide)

instance : Scalar.LawfulSign Float where
  numbers_of_le := Doubles.numbers_of_le
  numbers_of_lt := Doubles.numbers_of_lt
  numbers_of_beq := Doubles.numbers_of_beq
  neg_le_neg := Doubles.neg_le_neg
  abs_beq_zero := Doubles.abs_beq_zero
  mul_ten_le le := Doubles.mul_le_mul_right le (by decide +kernel) (by decide +kernel)

namespace Scalar

variable {α : Type} [Scalar α] [LawfulSign α] {x y z : α}

open LawfulSign

/-! ## Comparisons in a row -/

theorem le_of_le_of_le (hxy : x ≤ y) (hyz : y ≤ z) : x ≤ z :=
  LawfulOrder.le_trans (numbers_of_le hxy).1 (numbers_of_le hxy).2 (numbers_of_le hyz).2 hxy hyz

theorem lt_of_lt_of_le (hxy : x < y) (hyz : y ≤ z) : x < z := by
  obtain ⟨hx, hy⟩ := numbers_of_lt hxy
  have hz := (numbers_of_le hyz).2
  rw [LawfulOrder.lt_iff hx hz]
  exact fun hzx => (LawfulOrder.lt_iff hx hy).1 hxy (le_of_le_of_le hyz hzx)

theorem lt_of_le_of_lt (hxy : x ≤ y) (hyz : y < z) : x < z := by
  obtain ⟨hy, hz⟩ := numbers_of_lt hyz
  have hx := (numbers_of_le hxy).1
  rw [LawfulOrder.lt_iff hx hz]
  exact fun hzx => (LawfulOrder.lt_iff hy hz).1 hyz (le_of_le_of_le hzx hxy)

theorem not_lt_of_le (hyx : y ≤ x) : ¬x < y := fun less =>
  (LawfulOrder.lt_iff (numbers_of_lt less).1 (numbers_of_lt less).2).1 less hyx

theorem not_lt_of_lt (hyx : y < x) : ¬x < y :=
  not_lt_of_le (le_of_lt (numbers_of_lt hyx).1 (numbers_of_lt hyx).2 hyx)

theorem le_of_beq (h : (x == y) = true) : x ≤ y ∧ y ≤ x :=
  (LawfulOrder.beq_iff (numbers_of_beq h).1 (numbers_of_beq h).2).1 h

end Scalar

end Backgammon
