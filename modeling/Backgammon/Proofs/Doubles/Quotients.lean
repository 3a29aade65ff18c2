import Backgammon.Proofs.Doubles.Differences

/-!
# Proofs/Doubles/Quotients — the place of a double between two others, as a fraction

    a ───── x ──────── b          (x − a) / (b − a)
    0 ───── ? ──────── 1

Differences of finite doubles keep their order and their sign when they are rounded, and a difference is
zero only for equal numbers, since the smallest doubles are a whole number of units apart.  A quotient of
a number by one that is no smaller is found to some bits below one and then rounded, which takes it to one
at most.  What may go wrong is that a difference is too large for a double.

* `sub_nonneg`, `sub_pos`, `sub_neg`, `sub_le_sub_right` — differences against zero and against each other.
* `sub_beq_zero_iff` — only equal numbers have no difference.
* `exists_roundWithAccuracy_below` — what is below one is rounded to one at most, however accurate it is.
* `divCore_le_one` — the bits of a quotient of a number by one that is no smaller.
* `div_mem_unit` — such a quotient lies between zero and one.
-/

namespace Backgammon.Doubles

open Float.Model (Format UnpackedFloat totalExponent)
open Float.Model.UnpackedFloat

variable {m m' k : Nat} {e e' : Int} {x y z : Float}

/-! ## Differences -/

theorem isNaN_of_isFinite (finite : x.isFinite = true) : x.isNaN = false := by
  cases bounded : view x with
  | notANumber =>
    have held := bounded_view finite
    rw [bounded] at held
    cases held
  | _ =>
    change (view x).isNaN = false
    rw [bounded]
    rfl

theorem rounded_pos {n : Nat} (pos : 0 < n) : 0 < rounded n := by
  have := (roundedMantissa_bounds n).2.2 pos
  rw [rounded]
  omega

/-- **Rounding makes nothing of a number of units** only if it is nothing. -/
theorem settled_pos {n : Int} (pos : 0 < n) : 0 < settled n := by
  have some := rounded_pos (n := n.toNat) (by omega)
  rw [settled, if_pos pos.le, top]
  omega

theorem settled_eq_zero_iff {n : Int} : settled n = 0 ↔ n = 0 := by
  constructor
  · intro zero
    rcases lt_trichotomy n 0 with negative | rfl | positive
    · have := settled_pos (n := -n) (by omega)
      rw [settled_neg] at this
      omega
    · rfl
    · have := settled_pos positive
      omega
  · rintro rfl
    exact settled_zero

theorem place_zero : place (view 0) = 0 := by
  rw [view_zero]
  rfl

theorem place_one : place (view 1) = 1023 * 2 ^ 52 := by
  rw [view_one]
  decide +kernel

section

variable (hx : x.isFinite = true) (hy : y.isFinite = true)

include hx hy

/-- Finite doubles with the same units are in the same place. -/
theorem place_eq_iff_units_eq : place (view x) = place (view y) ↔ units (view x) = units (view y) := by
  have hx := bounded_view hx
  have hy := bounded_view hy
  constructor
  · intro same
    exact le_antisymm (units_le_of_place_le hx hy same.le) (units_le_of_place_le hy hx same.ge)
  · intro same
    rw [place_eq_settled hx, place_eq_settled hy, same]

theorem units_lt_of_lt (lt : x < y) : units (view x) < units (view y) := by
  have lt := (lt_iff_place (isNaN_of_isFinite hx) (isNaN_of_isFinite hy)).1 lt
  have le := units_le_of_place_le (bounded_view hx) (bounded_view hy) lt.le
  exact lt_of_le_of_ne le fun same => lt.ne ((place_eq_iff_units_eq hx hy).2 same)

/-- **A difference is a number**, if perhaps an infinite one. -/
theorem isNaN_sub : (x - y).isNaN = false := (place_sub (bounded_view hx) (bounded_view hy)).1

theorem place_sub_eq : place (view (x - y)) = settled (units (view x) - units (view y)) :=
  (place_sub (bounded_view hx) (bounded_view hy)).2

theorem sub_nonneg (le : y ≤ x) : 0 ≤ x - y := by
  have le := (le_iff_place (isNaN_of_isFinite hy) (isNaN_of_isFinite hx)).1 le
  have units_le := units_le_of_place_le (bounded_view hy) (bounded_view hx) le
  rw [le_iff_place (by rfl) (isNaN_sub hx hy), place_zero, place_sub_eq hx hy, ← settled_zero]
  exact settled_mono (by omega)

theorem sub_pos (lt : y < x) : 0 < x - y := by
  have units_lt := units_lt_of_lt hy hx lt
  rw [lt_iff_place (by rfl) (isNaN_sub hx hy), place_zero, place_sub_eq hx hy]
  exact settled_pos (by omega)

theorem sub_neg (lt : x < y) : x - y < 0 := by
  have units_lt := units_lt_of_lt hx hy lt
  have positive := settled_pos (n := -(units (view x) - units (view y))) (by omega)
  rw [settled_neg] at positive
  rw [lt_iff_place (isNaN_sub hx hy) (by rfl), place_zero, place_sub_eq hx hy]
  omega

/-- **Only equal numbers have no difference.** -/
theorem sub_beq_zero_iff : x - y == 0 ↔ x == y := by
  rw [beq_iff_place (isNaN_sub hx hy) (by rfl), place_zero, place_sub_eq hx hy, settled_eq_zero_iff,
    beq_iff_place (isNaN_of_isFinite hx) (isNaN_of_isFinite hy), place_eq_iff_units_eq hx hy]
  exact Int.sub_eq_zero

theorem sub_le_sub_right (hz : z.isFinite = true) (le : x ≤ y) : x - z ≤ y - z := by
  have le := (le_iff_place (isNaN_of_isFinite hx) (isNaN_of_isFinite hy)).1 le
  have units_le := units_le_of_place_le (bounded_view hx) (bounded_view hy) le
  rw [le_iff_place (isNaN_sub hx hz) (isNaN_sub hy hz), place_sub_eq hx hz, place_sub_eq hy hz]
  exact settled_mono (by omega)

theorem sub_le_sub_left (hz : z.isFinite = true) (le : x ≤ y) : z - y ≤ z - x := by
  have le := (le_iff_place (isNaN_of_isFinite hx) (isNaN_of_isFinite hy)).1 le
  have units_le := units_le_of_place_le (bounded_view hx) (bounded_view hy) le
  rw [le_iff_place (isNaN_sub hz hy) (isNaN_sub hz hx), place_sub_eq hz hy, place_sub_eq hz hx]
  exact settled_mono (by omega)

end

/-! ## Rounding below one -/

theorem mantissa_ofMantissaAndAccuracy (m : Nat) (accuracy : Accuracy) :
    (ExtendedMantissa.ofMantissaAndAccuracy m accuracy).mantissa = m := by
  cases accuracy with
  | exact => rfl
  | inexact half => cases half <;> rfl

/-- What is left of a mantissa has 53 bits, or the next power of two. -/
theorem div_two_pow_lt (m : Nat) (e : Int) :
    m / 2 ^ (max (m.log2 + e - 52) (-1074) - e).toNat < 2 ^ 53 := by
  rw [Nat.div_lt_iff_lt_mul (Nat.two_pow_pos _), ← pow_add]
  calc m < 2 ^ (m.log2 + 1) := Nat.lt_log2_self
    _ ≤ 2 ^ (53 + (max (m.log2 + e - 52) (-1074) - e).toNat) :=
      Nat.pow_le_pow_right (by decide) (by omega)

/-- **What is below one is rounded to one at most**, whatever has been found of the bits that are missing.
There are enough bits, unless the exponent is so low that no double has it. -/
theorem exists_roundWithAccuracy_below (enough : 2 ^ 52 ≤ m ∨ e ≤ -1074) (below : (m.log2 : Int) + e < 0)
    (s : Sign) (accuracy : Accuracy) :
    roundWithAccuracy .binary64 s m e accuracy = .zero s ∨
      ∃ m' e' pos, roundWithAccuracy .binary64 s m e accuracy = .finite s m' e' pos ∧
        Canonical m' e' ∧ (e' + 1074) * 2 ^ 52 + m' ≤ 1023 * 2 ^ 52 := by
  let target : Int := max (m.log2 + e - 52) (-1074)
  have few : m / 2 ^ (target - e).toNat < 2 ^ 53 := div_two_pow_lt m e
  have log_ge (ge : 2 ^ 52 ≤ m) : 52 ≤ m.log2 := (Nat.le_log2 (by omega)).2 ge
  have many (normal : -1074 < target) : 2 ^ 52 ≤ m / 2 ^ (target - e).toNat := by
    have ge : 2 ^ 52 ≤ m := by
      rcases enough with ge | low
      · exact ge
      · have log : 53 ≤ m.log2 := by omega
        have nonzero : m ≠ 0 := by
          rintro rfl
          exact absurd log (by decide)
        exact (Nat.le_log2 nonzero).1 (by omega)
    have shift : (target - e).toNat = m.log2 - 52 := by
      have := log_ge ge
      omega
    rw [shift, Nat.le_div_iff_mul_le (Nat.two_pow_pos _), ← pow_add, Nat.add_sub_cancel' (log_ge ge)]
    exact Nat.log2_self_le (by omega)
  have first : shiftToTargetExponent .binary64 m e accuracy =
      (ExtendedMantissa.ofMantissaAndAccuracy m accuracy >>> (target - e).toNat, target) := by
    have reached : e + (target - e).toNat = target := by omega
    rw [shiftToTargetExponent, targetExponent_eq]
    exact Prod.ext rfl reached
  have near := roundedMantissa_eq
    (ExtendedMantissa.ofMantissaAndAccuracy m accuracy >>> (target - e).toNat)
  rw [mantissa_shiftRight, mantissa_ofMantissaAndAccuracy] at near
  rw [roundWithAccuracy, first]
  dsimp only
  generalize (ExtendedMantissa.ofMantissaAndAccuracy m accuracy >>>
    (target - e).toNat).roundedMantissa = q at near ⊢
  rcases Nat.eq_zero_or_pos q with rfl | pos
  · have nothing : (shiftToTargetExponent .binary64 0 target .exact).1.mantissa = 0 := by
      rw [shiftToTargetExponent_eq, mantissa_shiftRight, Nat.zero_div]
    exact .inl (dif_pos nothing)
  refine .inr ?_
  -- rounding up may have carried into a new bit, and a second shift takes care of that
  by_cases full : q < 2 ^ 53
  · have canonical : Canonical q target := ⟨full, by omega, by omega⟩
    rw [canonical.shiftToTargetExponent_self pos, dif_neg pos.ne']
    exact ⟨q, target, pos, rfl, canonical, by omega⟩
  · have canonical : Canonical (2 ^ 52) (target + 1) := ⟨by decide, .inl (by decide), by omega⟩
    have carry : q = 2 ^ 52 * 2 ^ 1 := by omega
    have exponent : target = target + 1 - (1 : Nat) := by omega
    rw [carry, exponent, canonical.shiftToTargetExponent_eq (Nat.two_pow_pos 52),
      dif_neg (Nat.two_pow_pos 52).ne']
    exact ⟨2 ^ 52, target + 1, Nat.two_pow_pos 52, rfl, canonical, by omega⟩

/-! ## Quotients -/

/-- **The bits of a quotient** of a number by one that is no smaller: enough of them, and below one
unless the two are equal. -/
theorem divCore_le_one (pos : 0 < m) (pos' : 0 < m') (ge : -1074 ≤ e) (ge' : -1074 ≤ e')
    (le : m * 2 ^ (e + 1074).toNat ≤ m' * 2 ^ (e' + 1074).toNat) :
    ∃ q t accuracy, divCore .binary64 m e m' e' = (q, t, accuracy) ∧ (2 ^ 52 ≤ q ∨ t ≤ -1074) ∧
      ((q.log2 : Int) + t < 0 ∨ ∃ k : Nat, q = 2 ^ 52 * 2 ^ k ∧ t = -52 - k ∧ accuracy = .exact) := by
  -- the quotient is found to the exponent `t`
  let t : Int := min (e - e') (max ((m.log2 : Int) + e - (m'.log2 + e') - 53) (-1074))
  have target_eq : min (e - e') (Format.binary64.targetExponent
      (totalExponent m e - totalExponent m' e')) = t := by
    have lowest : Format.binary64.minExponent = -1074 := rfl
    rw [Format.targetExponent, totalExponent, totalExponent, mantissaBits_eq, lowest]
    omega
  have order : (m.log2 : Int) + e ≤ m'.log2 + e' := by
    have logs : (m * 2 ^ (e + 1074).toNat).log2 ≤ (m' * 2 ^ (e' + 1074).toNat).log2 := by
      rw [Nat.log2_eq_log_two, Nat.log2_eq_log_two]
      exact Nat.log_mono_right le
    rw [log2_mul_pow pos, log2_mul_pow pos'] at logs
    omega
  let numerator := m * 2 ^ (e - e' - t).toNat
  have core : divCore .binary64 m e m' e' =
      (numerator / m', t, accuracyOfFraction (numerator % m') m') := by
    rw [divCore, target_eq, Nat.shiftLeft_eq]
  have bounded : numerator ≤ m' * 2 ^ (-t).toNat := by
    have shift : (e - e' - t).toNat + (e' + 1074).toNat = (e + 1074).toNat + (-t).toNat := by omega
    refine Nat.le_of_mul_le_mul_right (c := 2 ^ (e' + 1074).toNat) ?_ (Nat.two_pow_pos _)
    calc numerator * 2 ^ (e' + 1074).toNat
        = m * 2 ^ (e + 1074).toNat * 2 ^ (-t).toNat := by
          rw [Nat.mul_assoc, ← pow_add, shift, pow_add, Nat.mul_assoc]
      _ ≤ m' * 2 ^ (e' + 1074).toNat * 2 ^ (-t).toNat := Nat.mul_le_mul_right _ le
      _ = m' * 2 ^ (-t).toNat * 2 ^ (e' + 1074).toNat := Nat.mul_right_comm ..
  refine ⟨_, _, _, core, ?_, ?_⟩
  · rcases lt_or_ge (-1074) t with normal | low
    · refine .inl ((Nat.le_div_iff_mul_le pos').2 ?_)
      have width : 52 + (m'.log2 + 1) ≤ m.log2 + (e - e' - t).toNat := by omega
      calc 2 ^ 52 * m' ≤ 2 ^ 52 * 2 ^ (m'.log2 + 1) := Nat.mul_le_mul_left _ Nat.lt_log2_self.le
        _ = 2 ^ (52 + (m'.log2 + 1)) := (pow_add ..).symm
        _ ≤ 2 ^ (m.log2 + (e - e' - t).toNat) := Nat.pow_le_pow_right (by decide) width
        _ = 2 ^ m.log2 * 2 ^ (e - e' - t).toNat := pow_add ..
        _ ≤ numerator := Nat.mul_le_mul_right _ (Nat.log2_self_le pos.ne')
    · exact .inr low
  · have quotient_le : numerator / m' ≤ 2 ^ (-t).toNat := Nat.div_le_of_le_mul bounded
    rcases quotient_le.eq_or_lt with one | less
    · have whole : numerator = m' * 2 ^ (-t).toNat :=
        le_antisymm bounded (one ▸ Nat.mul_div_le numerator m')
      refine .inr ⟨(-t).toNat - 52, ?_, by omega, ?_⟩
      · rw [one, ← pow_add, show 52 + ((-t).toNat - 52) = (-t).toNat by omega]
      · rw [whole, Nat.mul_mod_right, accuracyOfFraction, if_pos rfl]
    · rcases Nat.eq_zero_or_pos (numerator / m') with zero | some
      · rw [zero]
        have : Nat.log2 0 = 0 := by decide
        omega
      · have := (Nat.log2_lt some.ne').2 less
        omega

theorem lies_zero (s : Sign) :
    ∃ p, Lies (repack (.zero s)) p ∧ 0 ≤ p ∧ p ≤ 1023 * 2 ^ 52 := by
  rw [repack_zero]
  exact ⟨0, ⟨rfl, rfl⟩, by decide⟩

/-- The quotient of positive finite numbers. -/
theorem lies_div_finite {pos : 0 < m} {pos' : 0 < m'} (canonical : Canonical m e)
    (canonical' : Canonical m' e') (le : m * 2 ^ (e + 1074).toNat ≤ m' * 2 ^ (e' + 1074).toNat) :
    ∃ p, Lies (repack (div .binary64 (.finite .positive m e pos) (.finite .positive m' e' pos'))) p ∧
      0 ≤ p ∧ p ≤ 1023 * 2 ^ 52 := by
  obtain ⟨q, t, accuracy, core, enough, size⟩ :=
    divCore_le_one pos pos' canonical.ge canonical'.ge le
  have quotient : div .binary64 (.finite .positive m e pos) (.finite .positive m' e' pos') =
      roundWithAccuracy .binary64 .positive q t accuracy := by
    rw [div, core]
    rfl
  rw [quotient]
  rcases size with below | ⟨k, rfl, rfl, rfl⟩
  · rcases exists_roundWithAccuracy_below enough below .positive accuracy with
      nothing | ⟨m₁, e₁, pos₁, rounded, canonical₁, upper⟩
    · rw [nothing]
      exact lies_zero .positive
    · have lower := canonical₁.ge
      rw [rounded]
      refine ⟨_, lies_repack_finite canonical₁ .positive pos₁, ?_⟩
      rw [Sign.apply, top]
      omega
  · have one : Canonical (2 ^ 52) (-52) := ⟨by decide, .inl (by decide), by decide⟩
    rw [roundWithAccuracy_of_canonical one (Nat.two_pow_pos 52)]
    exact ⟨_, lies_repack_finite one .positive _, by decide +kernel⟩

/-- **A quotient of a number by one that is no smaller lies between zero and one**, unless both are
infinite. -/
theorem div_mem_unit (nonneg : 0 ≤ x) (le : x ≤ y) (pos : 0 < y) (finite : x.isFinite = true) :
    0 ≤ x / y ∧ x / y ≤ 1 := by
  have number_y : y.isNaN = false := isNaN_of_le le
  have place_x := (le_iff_place (by rfl) (isNaN_of_isFinite finite)).1 nonneg
  have place_y := (lt_iff_place (by rfl) number_y).1 pos
  have place_le := (le_iff_place (isNaN_of_isFinite finite) number_y).1 le
  rw [place_zero] at place_x place_y
  suffices lies : ∃ p, Lies (view (x / y)) p ∧ 0 ≤ p ∧ p ≤ 1023 * 2 ^ 52 by
    obtain ⟨p, ⟨number, rfl⟩, lower, upper⟩ := lies
    rw [le_iff_place (by rfl) number, le_iff_place number (by rfl), place_zero, place_one]
    exact ⟨lower, upper⟩
  change ∃ p, Lies (repack (div .binary64 (view x) (view y))) p ∧ _
  have hx := bounded_view finite
  have hy := held_view number_y
  generalize view x = u at *
  generalize view y = v at *
  rcases hx with s | ⟨s, pos, canonical, fits⟩ <;> rcases hy with s' | s' | ⟨s', pos', canonical', fits'⟩
  case zero.infinity | zero.finite => exact lies_zero _
  case zero.zero | finite.zero => exact absurd place_y (lt_irrefl 0)
  case finite.infinity => exact lies_zero _
  case finite.finite =>
    have units_le := units_le_of_place_le (.finite s pos canonical fits)
      (.finite s' pos' canonical' fits') place_le
    have bounds := canonical.place_bounds pos fits
    have bounds' := canonical'.place_bounds pos' fits'
    cases s with
    | negative =>
      rw [place, Sign.apply] at place_x
      omega
    | positive =>
      cases s' with
      | negative =>
        rw [place, Sign.apply] at place_y
        omega
      | positive => exact lies_div_finite canonical canonical' (Int.ofNat_le.1 units_le)

/-- **A number between two others, as a share of their distance.** -/
theorem share_mem_unit (hx : x.isFinite = true) (hy : y.isFinite = true) (hz : z.isFinite = true)
    (ge : y ≤ x) (le : x ≤ z) (apart : y < z) (near : (x - y).isFinite = true) :
    0 ≤ (x - y) / (z - y) ∧ (x - y) / (z - y) ≤ 1 :=
  div_mem_unit (sub_nonneg hx hy ge) (sub_le_sub_right hx hz hy le) (sub_pos hz hy apart) near

end Backgammon.Doubles
