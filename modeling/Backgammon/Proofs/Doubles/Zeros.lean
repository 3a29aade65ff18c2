import Backgammon.Proofs.Doubles.Rounding

/-!
# Proofs/Doubles/Zeros — how doubles reckon with zero

Zero comes with two signs, which compare as equal, and sums and products of zeros keep or lose theirs.
Up to that sign the rules are those of arithmetic: a number less itself is zero, zero may be added and
taken away, and zero by a number other than zero is zero.  Zero by zero is not a number, and no
comparison holds of it.

* `eq_of_beq` — doubles that compare as equal are the same unless they are zeros.
* `sub_beq_zero`, `add_beq`, `zero_add_beq`, `div_one` — the rules of arithmetic.
* `div_ofNat_beq_zero`, `div_ofNat_sub_one_beq_zero` — zero shared out by a count, or by one less.
* `not_div_le` — nothing is known of zero by zero.
-/

namespace Backgammon.Doubles

open Float.Model (Format UnpackedFloat totalExponent)
open Float.Model.UnpackedFloat

variable {x y z : Float}

/-! ## Equality -/

/-- The two zeros. -/
def zeros : List Float := [0, -0]

theorem beq_zero_iff : x == 0 ↔ x ∈ zeros := by
  have numbers : (0 : Float) ≠ .nan ∧ (-0 : Float) ≠ .nan := by decide +kernel
  rw [Float.beq_iff_ne_nan_and_eq, zeros]
  grind

theorem exists_view_of_beq_zero (hx : x == 0) : ∃ s, view x = .zero s := by
  have either := beq_zero_iff.1 hx
  rw [zeros, List.mem_pair] at either
  rcases either with rfl | rfl
  · exact ⟨.positive, by rfl⟩
  · exact ⟨.negative, by rfl⟩

theorem ofModel_zero_beq_zero (s : Sign) : Float.ofModel (.pack (.zero s)) == 0 := by
  cases s <;> rfl

/-- A finite double is zero or has a mantissa. -/
theorem exists_view (finite : x.isFinite = true) (nonzero : ¬x == 0) :
    ∃ s m e pos, view x = .finite s m e pos := by
  replace finite : (view x).isFinite = true := finite
  cases h : view x with
  | infinity s => simp [h, UnpackedFloat.isFinite] at finite
  | notANumber => simp [h, UnpackedFloat.isFinite] at finite
  | zero s =>
    rw [← ofModel_pack_view x, h] at nonzero
    exact absurd (ofModel_zero_beq_zero s) nonzero
  | finite s m e pos => exact ⟨s, m, e, pos, rfl⟩

/-- **Doubles that compare as equal are the same** unless they are zeros. -/
theorem eq_of_beq (h : x == y) (nonzero : ¬y == 0) : x = y := by
  rw [beq_zero_iff, zeros, List.mem_pair] at nonzero
  obtain ⟨-, -, same | ⟨-, zero⟩ | ⟨-, zero⟩⟩ := Float.beq_iff_ne_nan_and_eq.1 h
  · exact same
  · exact absurd (.inr zero) nonzero
  · exact absurd (.inl zero) nonzero

theorem beq_self (finite : x.isFinite = true) : x == x := by
  rw [Float.beq_self_iff]
  rintro rfl
  exact absurd finite (by decide +kernel)

theorem isFinite_of_beq (finite : x.isFinite = true) (hy : y == x) : y.isFinite = true := by
  by_cases zero : x == 0
  · have all : ∀ y ∈ zeros, y.isFinite = true := by decide +kernel
    exact all y (beq_zero_iff.1 (PartialEquivBEq.trans hy zero))
  · rwa [eq_of_beq hy zero]

/-! ## Sums and differences -/

theorem add_beq_zero (hx : x == 0) (hy : y == 0) : x + y == 0 := by
  have all : ∀ x ∈ zeros, ∀ y ∈ zeros, x + y == 0 := by decide +kernel
  exact all x (beq_zero_iff.1 hx) y (beq_zero_iff.1 hy)

/-- **Zero may be added** on the right… -/
theorem add_beq (finite : x.isFinite = true) (hy : y == x) (hz : z == 0) : y + z == x := by
  by_cases zero : x == 0
  · exact PartialEquivBEq.trans (add_beq_zero (PartialEquivBEq.trans hy zero) hz)
      (PartialEquivBEq.symm zero)
  · obtain rfl := eq_of_beq hy zero
    obtain ⟨s, m, e, pos, view_y⟩ := exists_view finite zero
    obtain ⟨s', view_z⟩ := exists_view_of_beq_zero hz
    have sum : y + z = y := ofModel_pack_eq <| show add .binary64 (view y) (view z) = view y by
      rw [view_y, view_z, add] <;> simp
    rwa [sum]

/-- …and on the left. -/
theorem zero_add_beq (finite : x.isFinite = true) : 0 + x == x := by
  by_cases zero : x == 0
  · exact PartialEquivBEq.trans (add_beq_zero (beq_self (by rfl)) zero) (PartialEquivBEq.symm zero)
  · obtain ⟨s, m, e, pos, view_x⟩ := exists_view finite zero
    have sum : 0 + x = x := ofModel_pack_eq <| show add .binary64 (view 0) (view x) = view x by
      rw [view_x, view_zero, add] <;> simp
    rw [sum]
    exact beq_self finite

theorem sub_zero (x : Float) : x - 0 = x := by
  refine ofModel_pack_eq ?_
  show sub .binary64 (view x) (view 0) = view x
  rw [view_zero]
  cases view x with
  | zero s => cases s <;> rfl
  | _ => rfl

/-- **A number less itself is zero.** -/
theorem sub_beq_zero (finite : x.isFinite = true) (hy : y == x) (hz : z == x) : y - z == 0 := by
  by_cases zero : x == 0
  · have all : ∀ y ∈ zeros, ∀ z ∈ zeros, y - z == 0 := by decide +kernel
    exact all y (beq_zero_iff.1 (PartialEquivBEq.trans hy zero)) z
      (beq_zero_iff.1 (PartialEquivBEq.trans hz zero))
  · obtain ⟨s, m, e, pos, view_x⟩ := exists_view finite zero
    rw [eq_of_beq hy zero, eq_of_beq hz zero]
    have difference : x - x = .ofModel (.pack (sub .binary64 (view x) (view x))) := rfl
    rw [difference, view_x, sub]
    simp only [Int.sub_self, UnpackedFloat.normalize]
    exact ofModel_zero_beq_zero .positive

/-! ## Products, quotients and roots -/

/-- A finite number times zero is zero. -/
theorem mul_beq_zero (finite : x.isFinite = true) (hz : z == 0) : x * z == 0 := by
  by_cases zero : x == 0
  · have all : ∀ x ∈ zeros, ∀ z ∈ zeros, x * z == 0 := by decide +kernel
    exact all x (beq_zero_iff.1 zero) z (beq_zero_iff.1 hz)
  · obtain ⟨s, m, e, pos, view_x⟩ := exists_view finite zero
    obtain ⟨s', view_z⟩ := exists_view_of_beq_zero hz
    have product : x * z = .ofModel (.pack (mul .binary64 (view x) (view z))) := rfl
    rw [product, view_x, view_z, mul]
    exact ofModel_zero_beq_zero _

/-- **Zero by a number far from zero is zero.** -/
theorem div_beq_zero {order : Int} (hx : x == 0) (hy : Large order (view y)) : x / y == 0 := by
  obtain ⟨s, view_x⟩ := exists_view_of_beq_zero hx
  have quotient : x / y = .ofModel (.pack (div .binary64 (view x) (view y))) := rfl
  rw [quotient, view_x]
  rcases hy with view_y | ⟨m, e, pos, view_y, -⟩ <;> rw [view_y, div]
  all_goals exact ofModel_zero_beq_zero _

theorem div_ofNat_beq_zero (hx : x == 0) {n : Nat} (pos : 0 < n) : x / Float.ofNat n == 0 :=
  div_beq_zero hx (large_ofNat pos)

theorem div_ofNat_sub_one_beq_zero (hx : x == 0) {n : Nat} (two_le : 2 ≤ n) :
    x / (Float.ofNat n - 1) == 0 := by
  have log : 1 ≤ n.log2 := (Nat.le_log2 (by omega)).2 two_le
  have large : Large 1 (view (Float.ofNat n)) := (large_ofNat (by omega)).mono (by omega)
  exact div_beq_zero hx large.sub_one.repack

/-- The quotient of a number by one has the bits of the number, and perhaps zeros after them. -/
theorem divCore_one {m : Nat} {e : Int} (canonical : Canonical m e) (pos : 0 < m) :
    ∃ k : Nat, divCore .binary64 m e (2 ^ 52) (-52) = (m * 2 ^ k, e - k, .exact) := by
  have target := canonical.target_eq pos
  let t : Int := max ((m.log2 : Int) + e - 53) (-1074)
  have lowest : Format.binary64.minExponent = -1074 := rfl
  have log : (2 ^ 52).log2 = 52 := log2_eq (Nat.le_refl _) (by decide)
  have target_eq : min (e - -52) (Format.binary64.targetExponent
      (totalExponent m e - totalExponent (2 ^ 52) (-52))) = t := by
    rw [Format.targetExponent, totalExponent, totalExponent, mantissaBits_eq, lowest, log]
    omega
  have shift : (e - -52 - t).toNat = (e - t).toNat + 52 := by omega
  have back : e - ((e - t).toNat : Int) = t := by omega
  refine ⟨(e - t).toNat, ?_⟩
  rw [divCore, target_eq, shift, Nat.shiftLeft_eq, pow_add, ← Nat.mul_assoc,
    Nat.mul_div_cancel _ (Nat.two_pow_pos 52), Nat.mul_mod_left, accuracyOfFraction, if_pos rfl,
    back]

/-- **A number divided by one is the number.** -/
theorem div_one (x : Float) : x / 1 = x := by
  refine ofModel_pack_eq ?_
  show div .binary64 (view x) (view 1) = view x
  rw [view_one]
  cases view_x : view x with
  | infinity s => cases s <;> rfl
  | notANumber => rfl
  | zero s => cases s <;> rfl
  | finite s m e pos =>
    obtain ⟨canonical, -⟩ := canonical_of_unpack view_x
    obtain ⟨k, core⟩ := divCore_one canonical pos
    have sign : s / .positive = s := by cases s <;> rfl
    rw [div, core, sign]
    exact roundWithAccuracy_of_canonical canonical pos s k

theorem sqrt_beq_zero (hx : x == 0) : x.sqrt == 0 := by
  have all : ∀ x ∈ zeros, x.sqrt == 0 := by decide +kernel
  exact all x (beq_zero_iff.1 hx)

/-! ## Magnitudes -/

theorem abs_beq_zero (hx : x == 0) : x.abs == 0 := by
  have all : ∀ x ∈ zeros, x.abs == 0 := by decide +kernel
  exact all x (beq_zero_iff.1 hx)

/-- **Zero by the magnitude of a number other than zero is zero.** -/
theorem div_abs_beq_zero (hx : x == 0) (finite : y.isFinite = true) (nonzero : ¬y == 0) :
    x / y.abs == 0 := by
  obtain ⟨s, m, e, pos, view_y⟩ := exists_view finite nonzero
  obtain ⟨canonical, fits⟩ := canonical_of_unpack view_y
  obtain ⟨s', view_x⟩ := exists_view_of_beq_zero hx
  have magnitude : view y.abs = repack (view y).abs := rfl
  rw [view_y, UnpackedFloat.abs, repack_finite canonical, if_pos fits] at magnitude
  have quotient : x / y.abs = .ofModel (.pack (div .binary64 (view x) (view y.abs))) := rfl
  rw [quotient, view_x, magnitude, div]
  exact ofModel_zero_beq_zero _

/-! ## Comparisons -/

theorem le_iff : x ≤ y ↔ (view x).le (view y) = true := by
  show decide (x.toModel ≤ y.toModel) = true ↔ _
  rw [decide_eq_true_iff]
  rfl

theorem lt_iff : x < y ↔ (view x).lt (view y) = true := by
  show decide (x.toModel < y.toModel) = true ↔ _
  rw [decide_eq_true_iff]
  rfl

theorem compare_zero_eq (s s' : Sign) (u : UnpackedFloat) :
    (UnpackedFloat.zero s).compare u = (UnpackedFloat.zero s').compare u := by
  cases u with
  | finite s'' m e pos => cases s'' <;> rfl
  | infinity s'' => cases s'' <;> rfl
  | zero s'' => rfl
  | notANumber => rfl

/-- Zeros compare alike, whatever their signs. -/
theorem le_iff_of_beq_zero (hx : x == 0) : x ≤ y ↔ 0 ≤ y := by
  obtain ⟨s, view_x⟩ := exists_view_of_beq_zero hx
  rw [le_iff, le_iff, view_zero, view_x, UnpackedFloat.le, UnpackedFloat.le, compare_zero_eq]

theorem lt_iff_of_beq_zero (hx : x == 0) : x < y ↔ 0 < y := by
  obtain ⟨s, view_x⟩ := exists_view_of_beq_zero hx
  rw [lt_iff, lt_iff, view_zero, view_x, UnpackedFloat.lt, UnpackedFloat.lt, compare_zero_eq]

/-- What is a number and not below zero is from zero up. -/
theorem zero_le_of_not_lt (number : x.isNaN = false) (h : ¬x < 0) : 0 ≤ x := by
  replace number : (view x).isNaN = false := number
  rw [lt_iff, view_zero] at h
  rw [le_iff, view_zero]
  revert number h
  cases view x with
  | infinity s => cases s <;> decide
  | notANumber => decide
  | zero s => cases s <;> decide
  | finite s m e pos => cases s <;> simp [UnpackedFloat.lt, UnpackedFloat.le, UnpackedFloat.compare]

/-- **No comparison holds of zero by zero**, which is not a number. -/
theorem not_div_le (hx : x == 0) (hy : y == 0) (z : Float) : ¬x / y ≤ z := by
  have undefined : ∀ x ∈ zeros, ∀ y ∈ zeros, x / y = .nan := by decide +kernel
  rw [undefined x (beq_zero_iff.1 hx) y (beq_zero_iff.1 hy), le_iff]
  exact Bool.false_ne_true

end Backgammon.Doubles
