import Mathlib

/-!
# Proofs/Doubles/Rounding — what a double holds exactly

    double ──view──▸ ± m · 2ᵉ ──operation──▸ ± m' · 2ᵉ' ──round──▸ ──pack──▸ double

An operation on doubles takes them apart, works on sign, mantissa and exponent, rounds, and packs the
result.  Packing and rounding leave a number as it is that a double can hold, and neither makes nothing
of a number that is not too small.

* `Canonical` — a mantissa and an exponent as a double holds them.
* `canonical_of_unpack`, `repack_finite` — a double holds those, and nothing is lost in packing them.
* `roundWithAccuracy_of_canonical` — rounding leaves them as they are.
* `exists_roundWithAccuracy_eq`, `exists_round_eq` — rounding gives a number for every number that is
  not too small.
* `Large`, `large_ofNat` — a count is a double far from zero.
-/

namespace Backgammon.Doubles

open Float.Model (Format UnpackedFloat totalExponent)
open Float.Model.UnpackedFloat

/-- A double taken apart. -/
def view (x : Float) : UnpackedFloat := x.toModel.unpack

/-- What is left of a result once it is packed into a double. -/
def repack (u : UnpackedFloat) : UnpackedFloat := unpack .binary64 (pack .binary64 u)

/-- **A mantissa and an exponent as a double holds them**: 53 bits, all of them in use unless the
exponent is the least there is. -/
structure Canonical (m : Nat) (e : Int) : Prop where
  lt : m < 2 ^ 53
  normal : 2 ^ 52 ≤ m ∨ e = -1074
  ge : -1074 ≤ e

variable {m : Nat} {e : Int} {s : Sign} {pos : 0 < m}

/-! ## Packing -/

theorem exponentBias_eq : ((Format.binary64.exponentBias : Nat) : Int) = 1023 := rfl

theorem mantissaBits_eq : Format.binary64.mantissaBits = 53 := rfl

theorem toNat_one_append (fraction : BitVec 52) :
    (1#1 ++ fraction).toNat = 2 ^ 52 + fraction.toNat := by
  rw [BitVec.toNat_append, ← Nat.shiftLeft_add_eq_or_of_lt fraction.isLt]
  simp [Nat.shiftLeft_eq]

/-- **A double holds canonical numbers**, up to an exponent. -/
theorem canonical_of_unpack {b : BitVec Format.binary64.numBits}
    (h : unpack .binary64 b = .finite s m e pos) : Canonical m e ∧ e ≤ 971 := by
  have fraction_lt : (unpackMantissa b).toNat < 2 ^ 52 := (unpackMantissa b).isLt
  have exponent_lt : (unpackExponent b).toNat < 2 ^ 11 := (unpackExponent b).isLt
  rw [unpack] at h
  split at h
  · split at h <;> exact nomatch h
  next not_top =>
    have below_top : (unpackExponent b).toNat ≠ 2047 := fun top =>
      not_top (BitVec.eq_of_toNat_eq (top.trans (by decide)))
    split at h
    next lowest =>
      split at h
      · exact nomatch h
      · obtain ⟨-, rfl, rfl⟩ := UnpackedFloat.finite.inj h
        rw [lowest]
        exact ⟨⟨fraction_lt.trans (by decide), .inr (by decide), by decide⟩, by decide⟩
    next not_lowest =>
      have above : (unpackExponent b).toNat ≠ 0 := fun low =>
        not_lowest (BitVec.eq_of_toNat_eq (low.trans (by decide)))
      obtain ⟨-, rfl, rfl⟩ := UnpackedFloat.finite.inj h
      rw [toNat_one_append, exponentBias_eq]
      dsimp only
      refine ⟨⟨?_, .inl ?_, ?_⟩, ?_⟩ <;> omega

theorem log2_eq (ge : 2 ^ 52 ≤ m) (lt : m < 2 ^ 53) : m.log2 = 52 :=
  (Nat.log2_eq_iff (by omega)).2 ⟨ge, lt⟩

theorem finite_eq {m' : Nat} {e' : Int} (pos' : 0 < m') (hm : m = m') (he : e = e') :
    UnpackedFloat.finite s m e pos = .finite s m' e' pos' := by
  subst hm he
  rfl

theorem repack_infinity (s : Sign) : repack (.infinity s) = .infinity s := by cases s <;> rfl

/-- **A canonical number goes into a double unchanged** unless it is too large. -/
theorem repack_finite (canonical : Canonical m e) (s : Sign) (pos : 0 < m) :
    repack (.finite s m e pos) = if e ≤ 971 then .finite s m e pos else .infinity s := by
  obtain ⟨lt, normal, ge⟩ := canonical
  have biased : (e + Format.binary64.exponentBias +
      Format.binary64.mantissaBitsWithoutImplicit).toNat = (e + 1075).toNat := by
    rw [exponentBias_eq]
    dsimp only
    omega
  rw [repack, pack]
  simp only [biased, mantissaBits_eq]
  by_cases fits : e ≤ 971
  · rw [if_pos fits, if_neg (by omega)]
    by_cases hm : 2 ^ 52 ≤ m
    · have stored : (BitVec.ofNat 11 (e + 1075).toNat).toNat = (e + 1075).toNat :=
        Nat.mod_eq_of_lt (by omega)
      have fraction : 2 ^ 52 + (BitVec.ofNat 52 m).toNat = m := by
        rw [BitVec.toNat_ofNat]
        omega
      have not_top : BitVec.ofNat 11 (e + 1075).toNat ≠ -1#11 := fun top => by
        have := stored.symm.trans ((congrArg BitVec.toNat top).trans (by decide : _ = 2047))
        omega
      have not_lowest : BitVec.ofNat 11 (e + 1075).toNat ≠ 0#11 := fun low => by
        have := stored.symm.trans ((congrArg BitVec.toNat low).trans (by decide : _ = 0))
        omega
      rw [if_pos (by rw [log2_eq hm lt]), unpack]
      simp only [unpackMantissa_packComponents, unpackExponent_packComponents,
        unpackSign_packComponents, Sign.ofBitVec_toBitVec]
      rw [if_neg not_top, if_neg not_lowest]
      refine finite_eq pos ((toNat_one_append _).trans fraction) ?_
      rw [stored, exponentBias_eq]
      omega
    · have log : m.log2 < 52 := (Nat.log2_lt pos.ne').2 (Nat.not_le.1 hm)
      have fraction : (BitVec.ofNat 52 m).toNat = m := Nat.mod_eq_of_lt (Nat.not_le.1 hm)
      have nonzero : BitVec.ofNat 52 m ≠ 0#52 := fun zero =>
        pos.ne' (fraction.symm.trans (congrArg BitVec.toNat zero))
      rw [if_neg (by omega), unpack]
      simp only [unpackMantissa_packComponents, unpackExponent_packComponents,
        unpackSign_packComponents, Sign.ofBitVec_toBitVec]
      rw [if_neg (by decide), if_pos trivial, dif_neg nonzero]
      exact finite_eq pos fraction (normal.resolve_left hm).symm
  · rw [if_neg fits, if_pos (by omega)]
    exact repack_infinity s

/-- **Nothing is lost when a double is taken apart and packed again.** -/
theorem ofModel_pack_view (x : Float) : Float.ofModel (.pack (view x)) = x :=
  Float.ofBits_toBits x

/-- So a result that is a double already is that double. -/
theorem ofModel_pack_eq {u : UnpackedFloat} {x : Float} (h : u = view x) :
    Float.ofModel (.pack u) = x := by
  rw [h, ofModel_pack_view]

/-! ## Shifting out bits -/

theorem targetExponent_eq (m : Nat) (e : Int) :
    Format.binary64.targetExponent (totalExponent m e) = max (m.log2 + e - 52) (-1074) := by
  have lowest : Format.binary64.minExponent = -1074 := rfl
  rw [Format.targetExponent, totalExponent, mantissaBits_eq, lowest]
  omega

/-- A canonical number has the exponent that it should have. -/
theorem Canonical.target_eq (h : Canonical m e) (pos : 0 < m) :
    max (m.log2 + e - 52) (-1074) = e := by
  obtain ⟨lt, normal, ge⟩ := h
  have log : m.log2 < 53 := (Nat.log2_lt pos.ne').2 lt
  rcases normal with normal | rfl
  · have := log2_eq normal lt
    omega
  · omega

theorem log2_mul_pow (pos : 0 < m) (k : Nat) : (m * 2 ^ k).log2 = m.log2 + k := by
  refine (Nat.log2_eq_iff (Nat.mul_pos pos (Nat.two_pow_pos k)).ne').2 ⟨?_, ?_⟩
  · rw [pow_add]
    exact Nat.mul_le_mul_right _ (Nat.log2_self_le pos.ne')
  · rw [Nat.add_right_comm, pow_add]
    exact Nat.mul_lt_mul_of_pos_right Nat.lt_log2_self (Nat.two_pow_pos k)

theorem shiftRight_succ (em : ExtendedMantissa) (k : Nat) :
    em >>> (k + 1) = (em >>> k).shiftRightOne := rfl

theorem mantissa_shiftRight (em : ExtendedMantissa) (k : Nat) :
    (em >>> k).mantissa = em.mantissa / 2 ^ k := by
  induction k with
  | zero => exact (Nat.div_one _).symm
  | succ k ih =>
    rw [shiftRight_succ, ExtendedMantissa.shiftRightOne, ih, Nat.div_div_eq_div_mul, pow_succ]

/-- Zeros may be shifted out without a trace. -/
theorem shiftRight_mul_pow (m k : Nat) :
    (⟨m * 2 ^ k, false, false⟩ : ExtendedMantissa) >>> k = ⟨m, false, false⟩ := by
  induction k generalizing m with
  | zero =>
    rw [pow_zero, Nat.mul_one]
    rfl
  | succ k ih =>
    have even : m * 2 ^ (k + 1) = m * 2 * 2 ^ k := by ring
    rw [shiftRight_succ, even, ih, ExtendedMantissa.shiftRightOne]
    simp

theorem roundedMantissa_eq (em : ExtendedMantissa) :
    em.roundedMantissa = em.mantissa ∨ em.roundedMantissa = em.mantissa + 1 := by
  obtain ⟨m, _ | _, _ | _⟩ := em
  · exact .inl rfl
  · exact .inl rfl
  · rcases Nat.mod_two_eq_zero_or_one m with even | odd
    · exact .inl (congrArg (m + ·) even)
    · exact .inr (congrArg (m + ·) odd)
  · exact .inr rfl

theorem shiftToTargetExponent_eq (m : Nat) (e : Int) :
    shiftToTargetExponent .binary64 m e .exact =
      ((⟨m, false, false⟩ : ExtendedMantissa) >>> (max (m.log2 + e - 52) (-1074) - e).toNat,
        e + (max (m.log2 + e - 52) (-1074) - e).toNat) := by
  rw [← targetExponent_eq]
  rfl

theorem Canonical.shiftToTargetExponent_eq (h : Canonical m e) (pos : 0 < m) (k : Nat) :
    shiftToTargetExponent .binary64 (m * 2 ^ k) (e - k) .exact = (⟨m, false, false⟩, e) := by
  have target := h.target_eq pos
  have shift : (max (((m * 2 ^ k).log2 : Int) + (e - k) - 52) (-1074) - (e - k)).toNat = k := by
    rw [log2_mul_pow pos]
    omega
  rw [Doubles.shiftToTargetExponent_eq, shift, shiftRight_mul_pow, Int.sub_add_cancel]

theorem Canonical.shiftToTargetExponent_self (h : Canonical m e) (pos : 0 < m) :
    shiftToTargetExponent .binary64 m e .exact = (⟨m, false, false⟩, e) := by
  simpa using h.shiftToTargetExponent_eq pos 0

/-! ## Rounding -/

/-- **Rounding leaves a number as it is that a double can hold**, however its mantissa was padded. -/
theorem roundWithAccuracy_of_canonical (h : Canonical m e) (pos : 0 < m) (s : Sign) (k : Nat) :
    roundWithAccuracy .binary64 s (m * 2 ^ k) (e - k) .exact = .finite s m e pos := by
  rw [roundWithAccuracy, h.shiftToTargetExponent_eq pos k]
  simp only [ExtendedMantissa.roundedMantissa, ExtendedMantissa.accuracy,
    Accuracy.roundToNearestEven, h.shiftToTargetExponent_self pos]
  rw [dif_neg pos.ne']

/-- **Rounding gives a number for every number that is not too small**, of its order at least. -/
theorem exists_roundWithAccuracy_eq (ge : 2 ^ 52 ≤ m) (he : -1022 ≤ m.log2 + e) (s : Sign) :
    ∃ m' e' pos, roundWithAccuracy .binary64 s m e .exact = .finite s m' e' pos ∧
      Canonical m' e' ∧ 2 ^ 52 ≤ m' ∧ (m.log2 : Int) + e ≤ e' + 52 := by
  have nonzero : m ≠ 0 := by omega
  have log_ge : 52 ≤ m.log2 := (Nat.le_log2 nonzero).2 ge
  have shift : (max ((m.log2 : Int) + e - 52) (-1074) - e).toNat = m.log2 - 52 := by omega
  have new_exponent : e + ((m.log2 - 52 : Nat) : Int) = m.log2 + e - 52 := by omega
  rw [roundWithAccuracy, shiftToTargetExponent_eq, shift, new_exponent]
  generalize first : (⟨m, false, false⟩ : ExtendedMantissa) >>> (m.log2 - 52) = em
  have kept : 2 ^ 52 ≤ em.mantissa ∧ em.mantissa < 2 ^ 53 := by
    have width : 2 ^ m.log2 = 2 ^ 52 * 2 ^ (m.log2 - 52) := by
      rw [← pow_add, Nat.add_sub_cancel' log_ge]
    have lower := Nat.log2_self_le nonzero
    have upper : m < 2 ^ (m.log2 + 1) := Nat.lt_log2_self
    rw [pow_succ, width] at upper
    rw [width] at lower
    rw [← first, mantissa_shiftRight]
    exact ⟨(Nat.le_div_iff_mul_le (Nat.two_pow_pos _)).2 lower,
      (Nat.div_lt_iff_lt_mul (Nat.two_pow_pos _)).2 (by linarith)⟩
  have rounded : 2 ^ 52 ≤ em.roundedMantissa ∧ em.roundedMantissa ≤ 2 ^ 53 := by
    have := roundedMantissa_eq em
    omega
  dsimp only
  generalize em.roundedMantissa = q at *
  -- rounding up may have carried into a new bit, and a second shift takes care of that
  by_cases full : q < 2 ^ 53
  · have canonical : Canonical q (m.log2 + e - 52) := ⟨full, .inl rounded.1, by omega⟩
    rw [canonical.shiftToTargetExponent_self (by omega), dif_neg (by dsimp only; omega)]
    exact ⟨_, _, _, rfl, canonical, rounded.1, by omega⟩
  · have canonical : Canonical (2 ^ 52) (m.log2 + e - 51) := ⟨by decide, .inl (by decide), by omega⟩
    have carry : q = 2 ^ 52 * 2 ^ 1 := by omega
    have exponent : (m.log2 : Int) + e - 52 = m.log2 + e - 51 - (1 : Nat) := by omega
    rw [carry, exponent, canonical.shiftToTargetExponent_eq (Nat.two_pow_pos 52),
      dif_neg (Nat.two_pow_pos 52).ne']
    exact ⟨_, _, _, rfl, canonical, Nat.le_refl _, by omega⟩

/-- The same of a number that comes with too few bits. -/
theorem exists_round_eq (pos : 0 < m) (he : -1022 ≤ m.log2 + e) (s : Sign) :
    ∃ m' e' pos, round .binary64 s m e = .finite s m' e' pos ∧
      Canonical m' e' ∧ 2 ^ 52 ≤ m' ∧ (m.log2 : Int) + e ≤ e' + 52 := by
  have shift : (e - max ((m.log2 : Int) + e - 52) (-1074)).toNat = 52 - m.log2 := by omega
  have log : (m * 2 ^ (52 - m.log2)).log2 = m.log2 + (52 - m.log2) := log2_mul_pow pos _
  have wide : 2 ^ 52 ≤ m * 2 ^ (52 - m.log2) :=
    (Nat.le_log2 (Nat.mul_pos pos (Nat.two_pow_pos _)).ne').1 (by omega)
  have same : (m.log2 : Int) + e = (m * 2 ^ (52 - m.log2)).log2 + (e - (52 - m.log2 : Nat)) := by
    omega
  rw [UnpackedFloat.round, targetExponent_eq, decreaseExponent, shift, Nat.shiftLeft_eq, same]
  exact exists_roundWithAccuracy_eq wide (by omega) s

/-! ## Counts -/

/-- **A number far from zero**: positive, and of at least this binary order if it is finite. -/
def Large (order : Int) (u : UnpackedFloat) : Prop :=
  u = .infinity .positive ∨ ∃ m e pos, u = .finite .positive m e pos ∧ Canonical m e ∧
    2 ^ 52 ≤ m ∧ order ≤ e + 52

variable {order : Int} {u : UnpackedFloat}

theorem Large.mono {order' : Int} (h : Large order u) (le : order' ≤ order) : Large order' u :=
  h.imp_right fun ⟨m, e, pos, eq, canonical, normal, ge⟩ =>
    ⟨m, e, pos, eq, canonical, normal, le.trans ge⟩

theorem Large.repack (h : Large order u) : Large order (repack u) := by
  rcases h with rfl | ⟨m, e, pos, rfl, canonical, normal, le⟩
  · exact .inl (repack_infinity _)
  · rw [repack_finite canonical]
    split
    · exact .inr ⟨m, e, pos, rfl, canonical, normal, le⟩
    · exact .inl rfl

theorem large_normalize {p : Int} (pos : 0 < p) (he : -1022 ≤ p.toNat.log2 + e) (s : Sign) :
    Large (p.toNat.log2 + e) (normalize .binary64 p e s) := by
  obtain ⟨m, e', pos', eq, canonical, normal, ge⟩ := exists_round_eq (by omega) he .positive
  rw [UnpackedFloat.normalize, Int.compare_eq_gt.2 pos]
  exact .inr ⟨m, e', pos', eq, canonical, normal, ge⟩

theorem view_zero : view 0 = .zero .positive := by rfl

theorem view_one : view 1 = .finite .positive (2 ^ 52) (-52) (Nat.two_pow_pos 52) := by rfl

theorem Large.mul_one (h : Large order u) : mul .binary64 u (view 1) = u := by
  rw [view_one]
  rcases h with rfl | ⟨m, e, pos, rfl, canonical, -, -⟩
  · rfl
  · exact roundWithAccuracy_of_canonical canonical pos .positive 52

/-- One less than a number from two up is far from zero. -/
theorem Large.sub_one (h : Large 1 u) : Large 0 (sub .binary64 u (view 1)) := by
  rw [view_one]
  rcases h with rfl | ⟨m, e, pos, rfl, -, normal, ge⟩
  · exact .inl rfl
  · have aligned : min e (-52) = -52 := by omega
    have shift : (e - -52).toNat = (e - -52).toNat - 1 + 1 := by omega
    have wide : 2 ^ 53 ≤ m * 2 ^ (e - -52).toNat := by
      rw [shift]
      calc 2 ^ 53 = 2 ^ 52 * 2 ^ 1 := rfl
        _ ≤ m * 2 ^ ((e - -52).toNat - 1 + 1) :=
          Nat.mul_le_mul normal (Nat.pow_le_pow_right (by decide) (by omega))
    have difference : sub .binary64 (.finite .positive m e pos)
        (.finite .positive (2 ^ 52) (-52) (Nat.two_pow_pos 52)) =
          normalize .binary64 ((m * 2 ^ (e - -52).toNat : Nat) - (2 ^ 52 : Nat)) (-52)
            .positive := by
      simp only [sub, aligned, decreaseExponent, Sign.apply, Nat.shiftLeft_eq]
      rfl
    have log : 52 ≤ (((m * 2 ^ (e - -52).toNat : Nat) - (2 ^ 52 : Nat) : Int)).toNat.log2 :=
      (Nat.le_log2 (by omega)).2 (by omega)
    rw [difference]
    exact (large_normalize (by omega) (by omega) .positive).mono (by omega)

/-- **A count is a double far from zero.** -/
theorem large_ofNat {n : Nat} (pos : 0 < n) : Large n.log2 (view (Float.ofNat n)) := by
  -- counts of up to 53 bits are converted directly, others by way of a decimal numeral
  by_cases small : n < 2 ^ 53
  · have path : view (Float.ofNat n) = repack (mul .binary64
        (repack (normalize .binary64 n.toUInt64.toNat 0 .positive)) (view 1)) := by
      have fast : n < 2 ^ 53 ∧ 0 ≤ 22 := ⟨small, by decide⟩
      show view (Float.ofScientific n false 0) = _
      rw [Float.ofScientific, dif_pos fast]
      rfl
    have same : n.toUInt64.toNat = n := Nat.mod_eq_of_lt (by omega)
    have converted := large_normalize (p := n) (e := 0) (by omega) (by omega) .positive
    rw [Int.toNat_natCast, Int.add_zero] at converted
    rw [path, same, converted.repack.mul_one]
    exact converted.repack.repack
  · have path : view (Float.ofNat n) = repack (UnpackedFloat.ofScientific .binary64 n 0) := by
      show view (Float.ofScientific n false 0) = _
      rw [Float.ofScientific, dif_neg fun fast => small fast.1]
      rfl
    have padded : UnpackedFloat.ofScientific .binary64 n 0 =
        roundWithAccuracy .binary64 .positive (n * 2 ^ 53) (-53) .exact := by
      rw [UnpackedFloat.ofScientific, dif_neg pos.ne', if_neg (by decide),
        if_neg (by dsimp only; omega), if_pos (by decide), mul]
      simp [Nat.shiftLeft_eq, mantissaBits_eq]
      rfl
    have log : (n * 2 ^ 53).log2 = n.log2 + 53 := log2_mul_pow pos 53
    obtain ⟨m, e, pos', eq, canonical, normal, ge⟩ :=
      exists_roundWithAccuracy_eq (m := n * 2 ^ 53) (e := -53) (by omega) (by omega) .positive
    rw [path, padded]
    exact Large.repack (.inr ⟨m, e, pos', eq, canonical, normal, by omega⟩)

end Backgammon.Doubles
