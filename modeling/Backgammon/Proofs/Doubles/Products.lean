import Backgammon.Proofs.Doubles.Quotients

/-!
# Proofs/Doubles/Products — rounding keeps the order of products

    x · c  exactly        n · 2⁻²¹⁴⁸  ──round to 53 bits, or to units──▸  double
                            ≤                                              ≤
    y · c                 n'· 2⁻²¹⁴⁸  ──────────────────────────────▸  double

A product of two finite doubles is a whole number of **parts** so small that `2 ^ 1074` of them make a
unit.  It is rounded to 53 bits like a sum, but loses all parts of a unit besides, so that a small product
may come to nothing.  Rounding keeps the order here too.  What has a sign but no size of its own is
simpler: a number with the other sign, or with none, lies in the mirrored place.

* `numbers_of_le`, `numbers_of_lt`, `numbers_of_beq` — only numbers compare.
* `neg_le_neg` — changing signs turns the order round.
* `roundedParts`, `roundedParts_mono` — the place to which so many parts of units are rounded.
* `lies_mul` — a product of finite doubles lies where the product of their units is rounded to.
* `mul_le_mul_right` — products with a positive number are in the order of the other factors.
-/

namespace Backgammon.Doubles

open Float.Model (Format UnpackedFloat totalExponent)
open Float.Model.UnpackedFloat

variable {m n n' k : Nat} {e : Int} {u v : UnpackedFloat} {x y c : Float}

/-! ## Comparisons hold of numbers -/

theorem compare_notANumber (u : UnpackedFloat) :
    UnpackedFloat.compare .notANumber u = none ∧ u.compare .notANumber = none := by
  cases u <;> exact ⟨rfl, rfl⟩

/-- What compares with anything is a number. -/
theorem isNaN_of_compare (h : u.compare v ≠ none) : u.isNaN = false ∧ v.isNaN = false := by
  constructor
  · cases u with
    | notANumber => exact absurd (compare_notANumber v).1 h
    | _ => rfl
  · cases v with
    | notANumber => exact absurd (compare_notANumber u).2 h
    | _ => rfl

/-- **Only numbers compare.** -/
theorem numbers_of_le (h : x ≤ y) : x.isNaN = false ∧ y.isNaN = false := by
  rw [le_iff, UnpackedFloat.le] at h
  refine isNaN_of_compare (u := view x) (v := view y) fun none => ?_
  rw [none] at h
  exact Bool.false_ne_true h

theorem numbers_of_lt (h : x < y) : x.isNaN = false ∧ y.isNaN = false := by
  rw [lt_iff, UnpackedFloat.lt] at h
  refine isNaN_of_compare (u := view x) (v := view y) fun none => ?_
  rw [none] at h
  exact Bool.false_ne_true h

theorem numbers_of_beq (h : x == y) : x.isNaN = false ∧ y.isNaN = false := by
  replace h : ((view x).compare (view y) == some .eq) = true := h
  refine isNaN_of_compare (u := view x) (v := view y) fun none => ?_
  rw [none] at h
  exact Bool.false_ne_true h

/-! ## Signs -/

/-- What a double holds goes into a double unchanged. -/
theorem lies_repack (h : Held u) : Lies (repack u) (place u) := by
  cases h with
  | infinity s => rw [repack_infinity]; exact ⟨rfl, rfl⟩
  | zero s => rw [repack_zero]; exact ⟨rfl, rfl⟩
  | finite s pos canonical fits => rw [repack_finite canonical, if_pos fits]; exact ⟨rfl, rfl⟩

/-- A number with the other sign lies in the mirrored place. -/
theorem lies_neg (number : x.isNaN = false) : Lies (view (-x)) (-place (view x)) := by
  change Lies (repack (view x).neg) _
  have mirrored : Held (view x).neg ∧ place (view x).neg = -place (view x) := by
    have held := held_view number
    generalize view x = u at held
    cases held with
    | infinity s => exact ⟨.infinity _, apply_neg s _⟩
    | zero s => exact ⟨.zero _, rfl⟩
    | finite s pos canonical fits => exact ⟨.finite _ pos canonical fits, apply_neg s _⟩
  rw [← mirrored.2]
  exact lies_repack mirrored.1

/-- **Changing signs turns the order round.** -/
theorem neg_le_neg (h : x ≤ y) : -y ≤ -x := by
  obtain ⟨hx, hy⟩ := numbers_of_le h
  obtain ⟨hx', place_x⟩ := lies_neg hx
  obtain ⟨hy', place_y⟩ := lies_neg hy
  rw [le_iff_place hy' hx', place_x, place_y, Int.neg_le_neg_iff]
  exact (le_iff_place hx hy).1 h

/-! ## Rounding parts of units -/

/-- The bits that are lost of so many parts, if `2 ^ k` of them make a unit. -/
def lost (k n : Nat) : Nat := max (excess n) k

/-- **The place to which so many parts of units are rounded.** -/
def roundedParts (k n : Nat) : Nat :=
  (lost k n - k) * 2 ^ 52 + ((⟨n, false, false⟩ : ExtendedMantissa) >>> lost k n).roundedMantissa

/-- What is left has 53 bits or fewer, or is the next power of two; and all 53 unless only parts of units
are lost. -/
theorem roundedMantissa_lost_bounds (k n : Nat) :
    let q := ((⟨n, false, false⟩ : ExtendedMantissa) >>> lost k n).roundedMantissa
    q ≤ 2 ^ 53 ∧ (k < lost k n → 2 ^ 52 ≤ q) := by
  intro q
  have near : q = n / 2 ^ lost k n ∨ q = n / 2 ^ lost k n + 1 := by
    simpa only [mantissa_shiftRight] using
      roundedMantissa_eq ((⟨n, false, false⟩ : ExtendedMantissa) >>> lost k n)
  have few : n / 2 ^ lost k n < 2 ^ 53 :=
    (Nat.div_le_div_left (Nat.pow_le_pow_right (by decide) (Nat.le_max_left ..))
      (Nat.two_pow_pos _)).trans_lt (div_excess_lt n)
  refine ⟨by omega, fun more => ?_⟩
  have whole : lost k n = excess n := by
    rw [lost] at more ⊢
    omega
  have := (roundedMantissa_bounds n).2.1 (by omega)
  rwa [← whole] at this

/-- **Rounding keeps the order** of parts of units. -/
theorem roundedParts_mono (h : n ≤ n') (k : Nat) : roundedParts k n ≤ roundedParts k n' := by
  have excess_le : excess n ≤ excess n' := by
    rw [excess, excess, Nat.log2_eq_log_two, Nat.log2_eq_log_two]
    exact Nat.sub_le_sub_right (Nat.log_mono_right h) 52
  have lost_le : lost k n ≤ lost k n' := max_le_max_right k excess_le
  rcases lost_le.eq_or_lt with same | less
  · rw [roundedParts, roundedParts, same]
    exact Nat.add_le_add_left (roundedMantissa_mono h _) _
  · have above : k ≤ lost k n := Nat.le_max_right ..
    have upper := (roundedMantissa_lost_bounds k n).1
    have lower := (roundedMantissa_lost_bounds k n').2 (by omega)
    rw [roundedParts, roundedParts]
    omega

/-- Of nothing nothing is left. -/
theorem roundedParts_zero (k : Nat) : roundedParts k 0 = 0 := by
  have none : excess 0 = 0 := by decide
  have all : lost k 0 = k := by rw [lost, none, Nat.zero_max]
  rw [roundedParts, all, Nat.sub_self, roundedMantissa_shiftRight, Nat.zero_div, Nat.zero_mod]
  simp

/-- **A mantissa is rounded to its place**, if it has enough bits for its exponent. -/
theorem lies_repack_roundWithAccuracy (pos : 0 < m) (ge : -2148 ≤ e) (enough : 2 ^ 52 ≤ m ∨ e ≤ -1074)
    (s : Sign) :
    Lies (repack (roundWithAccuracy .binary64 s m e .exact))
      (s.apply (min (roundedParts 1074 (m * 2 ^ (e + 2148).toNat)) top)) := by
  let n := m * 2 ^ (e + 2148).toNat
  have log : n.log2 = m.log2 + (e + 2148).toNat := log2_mul_pow pos _
  have log_ge (normal : 2 ^ 52 ≤ m) : 52 ≤ m.log2 := (Nat.le_log2 pos.ne').2 normal
  have above : 1074 ≤ lost 1074 n := Nat.le_max_right ..
  have target : max (m.log2 + e - 52) (-1074) = (lost 1074 n : Int) - 2148 := by
    rw [lost, excess, log]
    omega
  have shift : (e + 2148).toNat + (max (m.log2 + e - 52) (-1074) - e).toNat = lost 1074 n := by
    omega
  have first : shiftToTargetExponent .binary64 m e .exact =
      ((⟨n, false, false⟩ : ExtendedMantissa) >>> lost 1074 n, (lost 1074 n : Int) - 2148) := by
    rw [shiftToTargetExponent_eq, ← shiftRight_mul_pow m (e + 2148).toNat, shiftRight_add, shift,
      Prod.mk.injEq]
    exact ⟨rfl, by omega⟩
  obtain ⟨upper, lower⟩ := roundedMantissa_lost_bounds 1074 n
  have place_eq : roundedParts 1074 n = (lost 1074 n - 1074) * 2 ^ 52 +
    ((⟨n, false, false⟩ : ExtendedMantissa) >>> lost 1074 n).roundedMantissa := rfl
  rw [roundWithAccuracy, first]
  change Lies _ (s.apply (min (roundedParts 1074 n) top))
  dsimp only
  generalize ((⟨n, false, false⟩ : ExtendedMantissa) >>> lost 1074 n).roundedMantissa = q at *
  rcases Nat.eq_zero_or_pos q with rfl | left
  · have nothing : (shiftToTargetExponent .binary64 0 ((lost 1074 n : Int) - 2148) .exact).1.mantissa =
        0 := by
      rw [shiftToTargetExponent_eq, mantissa_shiftRight, Nat.zero_div]
    have none : roundedParts 1074 n = 0 := by omega
    rw [dif_pos nothing, repack_zero, none]
    cases s <;> exact ⟨rfl, by decide⟩
  -- rounding up may have carried into a new bit, and a second shift takes care of that
  by_cases full : q < 2 ^ 53
  · have canonical : Canonical q (lost 1074 n - 2148) := ⟨full, by omega, by omega⟩
    have place : (roundedParts 1074 n : Int) = (lost 1074 n - 2148 + 1074) * 2 ^ 52 + q := by omega
    rw [canonical.shiftToTargetExponent_self left, dif_neg left.ne', place]
    exact lies_repack_finite canonical s left
  · have canonical : Canonical (2 ^ 52) (lost 1074 n - 2147) := ⟨by decide, .inl (by decide), by omega⟩
    have carry : q = 2 ^ 52 * 2 ^ 1 := by omega
    have exponent : (lost 1074 n : Int) - 2148 = lost 1074 n - 2147 - (1 : Nat) := by omega
    have place : (roundedParts 1074 n : Int) =
        (lost 1074 n - 2147 + 1074) * 2 ^ 52 + (2 ^ 52 : Nat) := by omega
    rw [carry, exponent, canonical.shiftToTargetExponent_eq (Nat.two_pow_pos 52),
      dif_neg (Nat.two_pow_pos 52).ne', place]
    exact lies_repack_finite canonical s _

/-! ## Products -/

/-- **The place of so many parts of units**, of either sign, once they are rounded and packed into a
double. -/
def settledParts (k : Nat) (n : Int) : Int := n.sign * min (roundedParts k n.natAbs : Int) top

theorem settledParts_apply (k : Nat) (s : Sign) (n : Nat) :
    settledParts k (s.apply n) = s.apply (min (roundedParts k n : Int) top) := by
  rw [settledParts]
  rcases Nat.eq_zero_or_pos n with rfl | pos
  · have none : min (0 : Int) top = 0 := by decide
    cases s <;> simp [Sign.apply, roundedParts_zero, none]
  · cases s with
    | positive => simp [Sign.apply, Int.sign_eq_one_of_pos (Int.natCast_pos.2 pos)]
    | negative => simp [Sign.apply, Int.sign_eq_one_of_pos (Int.natCast_pos.2 pos)]

theorem settledParts_mono {a b : Int} (h : a ≤ b) (k : Nat) : settledParts k a ≤ settledParts k b := by
  have top_nonneg : 0 ≤ top := by decide
  rw [settledParts, settledParts]
  rcases lt_trichotomy a 0 with negative | rfl | positive
  · rcases lt_trichotomy b 0 with negative' | rfl | positive'
    · have := roundedParts_mono (show b.natAbs ≤ a.natAbs by omega) k
      rw [Int.sign_eq_neg_one_of_neg negative, Int.sign_eq_neg_one_of_neg negative']
      omega
    · rw [Int.sign_eq_neg_one_of_neg negative, Int.sign_zero]
      omega
    · rw [Int.sign_eq_neg_one_of_neg negative, Int.sign_eq_one_of_pos positive']
      omega
  · rcases h.eq_or_lt with rfl | positive'
    · exact le_rfl
    · rw [Int.sign_zero, Int.sign_eq_one_of_pos positive']
      omega
  · have := roundedParts_mono (show a.natAbs ≤ b.natAbs by omega) k
    rw [Int.sign_eq_one_of_pos positive, Int.sign_eq_one_of_pos (positive.trans_le h)]
    omega

theorem apply_mul (s t : Sign) (a b : Nat) : s.apply a * t.apply b = (s * t).apply (a * b : Nat) := by
  cases s <;> cases t <;> simp only [Sign.apply, Nat.cast_mul, neg_mul, mul_neg, neg_neg]

/-- **A product of finite doubles lies where the product of their units is rounded to.** -/
theorem lies_mul (hu : Bounded u) (hv : Bounded v) :
    Lies (repack (mul .binary64 u v)) (settledParts 1074 (units u * units v)) := by
  rcases hu with s | @⟨s, m, e, pos, canonical, fits⟩ <;>
    rcases hv with s' | @⟨s', m', e', pos', canonical', fits'⟩
  case finite.finite =>
    have least := canonical.ge
    have least' := canonical'.ge
    have enough : 2 ^ 52 ≤ m * m' ∨ e + e' ≤ -1074 := by
      rcases canonical.normal with normal | low
      · exact .inl (normal.trans (Nat.le_mul_of_pos_right m pos'))
      rcases canonical'.normal with normal | low'
      · exact .inl (normal.trans (Nat.le_mul_of_pos_left m' pos))
      · exact .inr (by omega)
    have parts : m * 2 ^ (e + 1074).toNat * (m' * 2 ^ (e' + 1074).toNat) =
        m * m' * 2 ^ (e + e' + 2148).toNat := by
      rw [Nat.mul_mul_mul_comm, ← pow_add,
        show (e + 1074).toNat + (e' + 1074).toNat = (e + e' + 2148).toNat by omega]
    rw [units, units, apply_mul, parts, settledParts_apply]
    exact lies_repack_roundWithAccuracy (Nat.mul_pos pos pos') (by omega) enough (s * s')
  -- otherwise one of the two is zero
  all_goals
    have nothing : settledParts 1074 0 = 0 := Int.zero_mul _
    rw [mul, repack_zero]
    simp only [units, Int.zero_mul, Int.mul_zero, nothing]
    exact ⟨rfl, rfl⟩

/-- A product with a positive finite double. -/
theorem exists_lies_mul (hx : x.isNaN = false) (pos : 0 < c) (finite : c.isFinite = true) :
    Bounded (view x) ∧ Lies (view (x * c)) (settledParts 1074 (units (view x) * units (view c))) ∨
      ∃ s, view x = .infinity s ∧ view (x * c) = .infinity s := by
  have hc := bounded_view finite
  have place_pos := (lt_iff_place (by rfl) (isNaN_of_isFinite finite)).1 pos
  rw [place_zero] at place_pos
  rcases bounded_or_infinite hx with bounded | ⟨s, infinite⟩
  · exact .inl ⟨bounded, lies_mul bounded hc⟩
  · refine .inr ⟨s, infinite, ?_⟩
    change repack (mul .binary64 (view x) (view c)) = _
    rw [infinite]
    generalize view c = w at hc place_pos
    cases hc with
    | zero s' => exact absurd place_pos (lt_irrefl 0)
    | finite s' pos' canonical fits =>
      have bounds := canonical.place_bounds pos' fits
      cases s' with
      | positive => cases s <;> exact repack_infinity _
      | negative =>
        rw [place, Sign.apply] at place_pos
        omega

/-- **Products with a positive number are in the order of the other factors.** -/
theorem mul_le_mul_right (le : x ≤ y) (pos : 0 < c) (finite : c.isFinite = true) : x * c ≤ y * c := by
  obtain ⟨hx, hy⟩ := numbers_of_le le
  have place_le := (le_iff_place hx hy).1 le
  have units_pos : 0 ≤ units (view c) := by
    have := units_le_of_place_le (.zero .positive) (bounded_view finite)
      (le_of_lt ((lt_iff_place (by rfl) (isNaN_of_isFinite finite)).1 pos))
    exact this
  have number {z : Float} (hz : z.isNaN = false) : (z * c).isNaN = false := by
    rcases exists_lies_mul hz pos finite with ⟨-, number, -⟩ | ⟨s, -, infinite⟩
    · exact number
    · change (view (z * c)).isNaN = false
      rw [infinite]
      rfl
  rw [le_iff_place (number hx) (number hy)]
  rcases exists_lies_mul hx pos finite with ⟨bounded, -, place_x⟩ | ⟨s, infinite, product⟩
  · rcases exists_lies_mul hy pos finite with ⟨bounded', -, place_y⟩ | ⟨s', infinite', product'⟩
    · rw [place_x, place_y]
      have units_le := units_le_of_place_le bounded bounded' place_le
      exact settledParts_mono (Int.mul_le_mul_of_nonneg_right units_le units_pos) 1074
    · rw [infinite'] at place_le
      cases s' with
      | positive =>
        rw [product']
        exact (place_mem_Icc (number hx)).2
      | negative => exact absurd place_le (not_le.2 bounded.place_lt.1)
  · rw [infinite] at place_le
    rw [product]
    cases s with
    | negative => exact (place_mem_Icc (number hy)).1
    | positive =>
      rcases exists_lies_mul hy pos finite with ⟨bounded', -⟩ | ⟨s', infinite', product'⟩
      · exact absurd place_le (not_le.2 bounded'.place_lt.2)
      · rw [infinite'] at place_le
        rw [product']
        exact place_le

end Backgammon.Doubles
