import Mathlib.Algebra.BigOperators.Ring.List
import Mathlib.Algebra.Order.BigOperators.Group.List
import Mathlib.Algebra.Order.Field.Basic
import Mathlib.Algebra.Order.Ring.Rat
import Mathlib.Tactic.FieldSimp
import Mathlib.Tactic.Ring

/-!
# Proofs/Samples — mean and variance of a sample, by the book

    Σ (x − mean)²  ──one pass──▸  Σ x² − (Σ x)² / n
          │
          └──one more──▸  + (x − mean before) · (x − mean after)

By the book a sample is gone through twice: once for its mean, and once for the squared deviations from
it.  Whoever goes through it once keeps either two sums or a mean that moves; both come to the same.

* `Sample.mean`, `Sample.deviation`, `Sample.variance` — the statistics by the book.
* `Sample.deviation_eq_sub` — the squared deviations from two sums.
* `Sample.mean_concat`, `Sample.deviation_concat` — one more observation.
* `Sample.variance_eq_zero_iff` — only a sample without spread has no variance.
-/

namespace Backgammon.Sample

/-- **The arithmetic mean**, zero without observations. -/
def mean (xs : List Rat) : Rat := xs.sum / xs.length

/-- **The squared deviations from the mean**, summed. -/
def deviation (xs : List Rat) : Rat := (xs.map fun x => (x - mean xs) ^ 2).sum

/-- **The sample variance**, zero with fewer than two observations. -/
def variance (xs : List Rat) : Rat :=
  if xs.length < 2 then 0 else deviation xs / (xs.length - 1)

variable {xs ys : List Rat}

@[simp] theorem mean_nil : mean [] = 0 := zero_div _

/-! ## Order does not matter -/

theorem mean_perm (perm : xs.Perm ys) : mean xs = mean ys := by
  rw [mean, mean, perm.sum_eq, perm.length_eq]

theorem variance_perm (perm : xs.Perm ys) : variance xs = variance ys := by
  have same : deviation xs = deviation ys := by
    rw [deviation, deviation, mean_perm perm, (perm.map _).sum_eq]
  rw [variance, variance, same, perm.length_eq]

/-! ## Going through once -/

theorem length_mul_mean (xs : List Rat) : xs.length * mean xs = xs.sum := by
  rcases eq_or_ne xs [] with rfl | some
  · exact zero_mul _
  · exact mul_div_cancel₀ _ (by simpa using some)

/-- Squared distances from any point. -/
theorem sum_sq_sub (xs : List Rat) (m : Rat) : (xs.map fun x => (x - m) ^ 2).sum =
    (xs.map fun x => x * x).sum - 2 * m * xs.sum + xs.length * m ^ 2 := by
  induction xs with
  | nil => simp
  | cons x xs ih =>
    simp only [List.map_cons, List.sum_cons, List.length_cons, ih]
    push_cast
    ring

/-- **The squared deviations from two sums**: that of the observations, and that of their squares. -/
theorem deviation_eq_sub (xs : List Rat) :
    deviation xs = (xs.map fun x => x * x).sum - xs.sum * xs.sum / xs.length := by
  have twice : xs.sum * xs.sum / xs.length = xs.sum * mean xs := mul_div_assoc ..
  rw [deviation, sum_sq_sub, twice, ← length_mul_mean xs]
  ring

/-- **The mean of one more**: it moves towards the new observation. -/
theorem mean_concat (xs : List Rat) (x : Rat) :
    mean (xs ++ [x]) = mean xs + (x - mean xs) / (xs.length + 1) := by
  have pos : (xs.length + 1 : Rat) ≠ 0 := Nat.cast_add_one_ne_zero _
  rw [mean, List.sum_append, List.sum_singleton, List.length_append, List.length_singleton,
    ← length_mul_mean xs]
  push_cast
  field_simp
  ring

/-- **The squared deviations of one more**: they grow by the product of its distances from the mean
before and after. -/
theorem deviation_concat (xs : List Rat) (x : Rat) :
    deviation (xs ++ [x]) = deviation xs + (x - mean xs) * (x - mean (xs ++ [x])) := by
  have pos : (xs.length + 1 : Rat) ≠ 0 := Nat.cast_add_one_ne_zero _
  have squares (m : Rat) : ((xs ++ [x]).map fun y => (y - m) ^ 2).sum =
      (xs.map fun y => (y - m) ^ 2).sum + (x - m) ^ 2 := by simp
  rw [deviation, deviation, squares, sum_sq_sub, sum_sq_sub, mean_concat, ← length_mul_mean xs]
  field_simp
  ring

/-! ## Spread -/

theorem deviation_nonneg (xs : List Rat) : 0 ≤ deviation xs :=
  List.sum_nonneg (List.forall_mem_map.2 fun _ _ => sq_nonneg _)

/-- Where all observations are the same, they are where their mean is. -/
theorem eq_mean_of_const (same : ∀ x ∈ xs, ∀ y ∈ xs, x = y) {x : Rat} (hx : x ∈ xs) : x = mean xs := by
  have pos : (xs.length : Rat) ≠ 0 := Nat.cast_ne_zero.2 (List.length_pos_of_mem hx).ne'
  rw [mean, List.sum_eq_card_nsmul xs x fun y hy => same y hy x hx, nsmul_eq_mul,
    mul_div_cancel_left₀ _ pos]

/-- Nothing deviates from the mean just when all observations are the same. -/
theorem deviation_eq_zero_iff : deviation xs = 0 ↔ ∀ x ∈ xs, ∀ y ∈ xs, x = y := by
  constructor
  · intro none x hx y hy
    have at_mean {z : Rat} (hz : z ∈ xs) : z = mean xs := by
      have square := List.all_zero_of_le_zero_le_of_sum_eq_zero
        (List.forall_mem_map.2 fun _ _ => sq_nonneg _) none (List.mem_map_of_mem hz)
      exact sub_eq_zero.1 ((pow_eq_zero_iff two_ne_zero).1 square)
    exact (at_mean hx).trans (at_mean hy).symm
  · intro same
    refine List.sum_eq_zero (List.forall_mem_map.2 fun x hx => ?_)
    rw [← eq_mean_of_const same hx, sub_self, zero_pow two_ne_zero]

theorem variance_nonneg (xs : List Rat) : 0 ≤ variance xs := by
  rw [variance]
  split
  · exact le_rfl
  next many =>
    have pos : (0 : Rat) ≤ xs.length - 1 := sub_nonneg.2 (Nat.one_le_cast.2 (by omega))
    exact div_nonneg (deviation_nonneg xs) pos

/-- **Only a sample without spread has no variance.** -/
theorem variance_eq_zero_iff :
    variance xs = 0 ↔ xs.length < 2 ∨ ∀ x ∈ xs, ∀ y ∈ xs, x = y := by
  rw [variance]
  split
  next few => exact iff_of_true rfl (.inl few)
  next many =>
    have pos : (xs.length - 1 : Rat) ≠ 0 := sub_ne_zero.2 (Nat.cast_ne_one.2 (by omega))
    rw [div_eq_zero_iff, or_iff_left pos, deviation_eq_zero_iff, or_iff_right many]

end Backgammon.Sample
