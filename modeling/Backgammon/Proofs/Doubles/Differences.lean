import Backgammon.Proofs.Doubles.Order

/-!
# Proofs/Doubles/Differences — rounding keeps the order of differences

    a − x  exactly        n · 2⁻¹⁰⁷⁴  ──round to 53 bits──▸  double
                            ≤                                  ≤
    a − y                 n'· 2⁻¹⁰⁷⁴  ──────────────────▸  double

Every finite double is a whole number of the smallest positive doubles, its **units**, and so is every
difference of two, before it is rounded.  Rounding keeps the order of such numbers: among those of one
exponent since it goes by the part that is shifted out, and between two exponents since the power of two
between them is a double.

* `shiftRight_eq`, `roundedMantissa_shiftRight` — what a shift to the right leaves, and how it rounds.
* `rounded`, `rounded_mono` — the place to which so many units are rounded, in their order.
* `units`, `place_eq_settled` — the units of a finite double, which rounding leaves where they are.
* `place_sub` — a difference of finite doubles lies where the difference of their units is rounded to.
* `sub_le_of_le` — what is within a finite distance below the greatest, and all between the two.
-/

namespace Backgammon.Doubles

open Float.Model (Format UnpackedFloat totalExponent)
open Float.Model.UnpackedFloat

variable {m n n' k : Nat} {e : Int} {u v : UnpackedFloat} {x y : Float}

/-! ## Shifts -/

theorem shiftRight_add (em : ExtendedMantissa) (j k : Nat) : (em >>> j) >>> k = em >>> (j + k) := by
  induction k with
  | zero => rfl
  | succ k ih => rw [← Nat.add_assoc, shiftRight_succ, shiftRight_succ, ih]

/-- **What a shift leaves**: the bits above, the highest of those shifted out, and whether there are any
other. -/
theorem shiftRight_eq (n k : Nat) :
    (⟨n, false, false⟩ : ExtendedMantissa) >>> (k + 1) =
      ⟨n / 2 ^ (k + 1), n / 2 ^ k % 2 != 0, n % 2 ^ k != 0⟩ := by
  induction k with
  | zero =>
    change ExtendedMantissa.shiftRightOne ⟨n, false, false⟩ = _
    simp [ExtendedMantissa.shiftRightOne, Nat.mod_one]
  | succ k ih =>
    have rest : n % 2 ^ (k + 1) = n % 2 ^ k + 2 ^ k * (n / 2 ^ k % 2) := Nat.mod_pow_succ
    rw [shiftRight_succ, ih, ExtendedMantissa.shiftRightOne]
    simp only [Nat.div_div_eq_div_mul, ← pow_succ, ExtendedMantissa.mk.injEq, true_and, rest]
    rcases Nat.mod_two_eq_zero_or_one (n / 2 ^ k) with even | odd
    · simp [even]
    · simp [odd]

/-- A mantissa is rounded up when at least half a bit is missing, and more than that or the last bit that
is kept is odd. -/
theorem roundedMantissa_eq_add (q : Nat) (half rest : Bool) :
    (⟨q, half, rest⟩ : ExtendedMantissa).roundedMantissa =
      q + if half = true ∧ (rest = true ∨ q % 2 = 1) then 1 else 0 := by
  rcases Nat.mod_two_eq_zero_or_one q with even | odd
  all_goals
    cases half <;> cases rest <;> simp [ExtendedMantissa.roundedMantissa, ExtendedMantissa.accuracy,
      Accuracy.roundToNearestEven, *]

/-- **What is shifted out rounds up** when it is more than half a bit, or just half a bit and the last one
that is kept is odd. -/
theorem roundedMantissa_shiftRight (n k : Nat) :
    ((⟨n, false, false⟩ : ExtendedMantissa) >>> k).roundedMantissa =
      n / 2 ^ k + if 2 ^ k < 2 * (n % 2 ^ k) + n / 2 ^ k % 2 then 1 else 0 := by
  cases k with
  | zero =>
    have bit : ¬ 1 < n % 2 := by omega
    simp [Nat.mod_one, bit]
    rfl
  | succ k =>
    have out : n % 2 ^ (k + 1) = n % 2 ^ k + 2 ^ k * (n / 2 ^ k % 2) := Nat.mod_pow_succ
    have rest_lt : n % 2 ^ k < 2 ^ k := Nat.mod_lt _ (Nat.two_pow_pos k)
    rw [shiftRight_eq, roundedMantissa_eq_add, out]
    congr 2
    rw [eq_iff_iff, bne_iff_ne, bne_iff_ne]
    rcases Nat.mod_two_eq_zero_or_one (n / 2 ^ k) with even | odd
    · rw [even]
      omega
    · rw [odd]
      omega

/-! ## Rounding so many units -/

/-- The bits that so many units have beyond 53. -/
def excess (n : Nat) : Nat := n.log2 - 52

/-- **The place to which so many units are rounded.** -/
def rounded (n : Nat) : Nat :=
  excess n * 2 ^ 52 + ((⟨n, false, false⟩ : ExtendedMantissa) >>> excess n).roundedMantissa

theorem div_excess_lt (n : Nat) : n / 2 ^ excess n < 2 ^ 53 := by
  rw [Nat.div_lt_iff_lt_mul (Nat.two_pow_pos _), ← pow_add]
  calc n < 2 ^ (n.log2 + 1) := Nat.lt_log2_self
    _ ≤ 2 ^ (53 + excess n) := Nat.pow_le_pow_right (by decide) (by rw [excess]; omega)

theorem le_div_excess (h : 0 < excess n) : 2 ^ 52 ≤ n / 2 ^ excess n := by
  rw [excess] at h
  rw [Nat.le_div_iff_mul_le (Nat.two_pow_pos _), ← pow_add]
  calc 2 ^ (52 + excess n) = 2 ^ n.log2 := by rw [excess, show 52 + (n.log2 - 52) = n.log2 by omega]
    _ ≤ n := Nat.log2_self_le fun zero => by simp [zero] at h

/-- What is left of so many units has 53 bits, or the next power of two. -/
theorem roundedMantissa_bounds (n : Nat) :
    let q := ((⟨n, false, false⟩ : ExtendedMantissa) >>> excess n).roundedMantissa
    q ≤ 2 ^ 53 ∧ (0 < excess n → 2 ^ 52 ≤ q) ∧ (0 < n → 0 < q) := by
  intro q
  have near : q = n / 2 ^ excess n ∨ q = n / 2 ^ excess n + 1 := by
    simpa only [mantissa_shiftRight] using
      roundedMantissa_eq ((⟨n, false, false⟩ : ExtendedMantissa) >>> excess n)
  have upper := div_excess_lt n
  refine ⟨by omega, fun more => ?_, fun pos => ?_⟩
  · have := le_div_excess more
    omega
  · cases more : excess n with
    | zero =>
      rw [more, pow_zero, Nat.div_one] at near
      omega
    | succ k =>
      have := le_div_excess (n := n) (by omega)
      omega

/-- **Rounding keeps the order** of numbers with the same bits to be shifted out… -/
theorem roundedMantissa_mono (h : n ≤ n') (k : Nat) :
    ((⟨n, false, false⟩ : ExtendedMantissa) >>> k).roundedMantissa ≤
      ((⟨n', false, false⟩ : ExtendedMantissa) >>> k).roundedMantissa := by
  rw [roundedMantissa_shiftRight, roundedMantissa_shiftRight]
  have all := Nat.div_add_mod n (2 ^ k)
  have all' := Nat.div_add_mod n' (2 ^ k)
  rcases (Nat.div_le_div_right h : n / 2 ^ k ≤ n' / 2 ^ k).eq_or_lt with same | less
  · -- the same bits are kept, so that no less is shifted out
    rw [same] at all ⊢
    have out_le : n % 2 ^ k ≤ n' % 2 ^ k := by omega
    split
    · rw [if_pos (by omega)]
    · exact Nat.le_add_right _ _
  · split <;> omega

/-- …and of all numbers. -/
theorem rounded_mono (h : n ≤ n') : rounded n ≤ rounded n' := by
  have log_le : n.log2 ≤ n'.log2 := by
    rw [Nat.log2_eq_log_two, Nat.log2_eq_log_two]
    exact Nat.log_mono_right h
  have excess_le : excess n ≤ excess n' := Nat.sub_le_sub_right log_le 52
  rcases excess_le.eq_or_lt with same | less
  · rw [rounded, rounded, same]
    exact Nat.add_le_add_left (roundedMantissa_mono h _) _
  · have upper := (roundedMantissa_bounds n).1
    have lower := (roundedMantissa_bounds n').2.1 (by omega)
    rw [rounded, rounded]
    omega

/-- The first shift leaves of a number what it leaves of its units. -/
theorem shiftToTargetExponent_eq_units (pos : 0 < m) (ge : -1074 ≤ e)
    (le : e ≤ max (m.log2 + e - 52) (-1074)) :
    let n := m * 2 ^ (e + 1074).toNat
    shiftToTargetExponent .binary64 m e .exact =
      ((⟨n, false, false⟩ : ExtendedMantissa) >>> excess n, (excess n : Int) - 1074) := by
  intro n
  have log : n.log2 = m.log2 + (e + 1074).toNat := log2_mul_pow pos _
  have shift : (e + 1074).toNat + (max (m.log2 + e - 52) (-1074) - e).toNat = excess n := by
    rw [excess, log]
    omega
  rw [shiftToTargetExponent_eq, ← shiftRight_mul_pow m (e + 1074).toNat, shiftRight_add, shift,
    Prod.mk.injEq]
  exact ⟨rfl, by omega⟩

/-- **A number of units is rounded to its place**, whatever exponent it comes with. -/
theorem exists_round_eq_rounded (pos : 0 < m) (ge : -1074 ≤ e) (s : Sign) :
    ∃ m' e' pos', round .binary64 s m e = .finite s m' e' pos' ∧ Canonical m' e' ∧
      (e' + 1074) * 2 ^ 52 + m' = rounded (m * 2 ^ (e + 1074).toNat) := by
  let n := m * 2 ^ (e + 1074).toNat
  let i := (e - max (m.log2 + e - 52) (-1074)).toNat
  have log : (m * 2 ^ i).log2 = m.log2 + i := log2_mul_pow pos i
  have padded : m * 2 ^ i * 2 ^ (e - i + 1074).toNat = n := by
    rw [Nat.mul_assoc, ← pow_add, show i + (e - i + 1074).toNat = (e + 1074).toNat by omega]
  have first := shiftToTargetExponent_eq_units (m := m * 2 ^ i) (e := e - i)
    (Nat.mul_pos pos (Nat.two_pow_pos i)) (by omega) (by omega)
  obtain ⟨upper, lower, nonzero⟩ := roundedMantissa_bounds n
  have units_pos : 0 < n := Nat.mul_pos pos (Nat.two_pow_pos _)
  rw [UnpackedFloat.round, targetExponent_eq, decreaseExponent, Nat.shiftLeft_eq]
  change ∃ m' e' pos', roundWithAccuracy .binary64 s (m * 2 ^ i) (e - i) .exact = _ ∧ _ ∧
    _ = (rounded n : Int)
  rw [roundWithAccuracy, first, padded]
  have place_eq : rounded n = excess n * 2 ^ 52 +
    ((⟨n, false, false⟩ : ExtendedMantissa) >>> excess n).roundedMantissa := rfl
  dsimp only
  generalize ((⟨n, false, false⟩ : ExtendedMantissa) >>> excess n).roundedMantissa = q at *
  -- rounding up may have carried into a new bit, and a second shift takes care of that
  by_cases full : q < 2 ^ 53
  · have canonical : Canonical q (excess n - 1074) := ⟨full, by omega, by omega⟩
    rw [canonical.shiftToTargetExponent_self (nonzero units_pos), dif_neg (nonzero units_pos).ne']
    exact ⟨q, _, nonzero units_pos, rfl, canonical, by omega⟩
  · have canonical : Canonical (2 ^ 52) (excess n - 1073) := ⟨by decide, .inl (by decide), by omega⟩
    have carry : q = 2 ^ 52 * 2 ^ 1 := by omega
    have exponent : (excess n : Int) - 1074 = excess n - 1073 - (1 : Nat) := by omega
    rw [carry, exponent, canonical.shiftToTargetExponent_eq (Nat.two_pow_pos 52),
      dif_neg (Nat.two_pow_pos 52).ne']
    exact ⟨2 ^ 52, _, Nat.two_pow_pos 52, rfl, canonical, by omega⟩

/-! ## Places of rounded numbers -/

/-- The place of infinity. -/
def top : Int := 2047 * 2 ^ 52

/-- **A number with its place.** -/
def Lies (u : UnpackedFloat) (p : Int) : Prop := u.isNaN = false ∧ place u = p

/-- **The place of so many units**, of either sign, once they are rounded and packed into a double. -/
def settled (n : Int) : Int :=
  if 0 ≤ n then min (rounded n.toNat : Int) top else -min (rounded (-n).toNat : Int) top

theorem settled_zero : settled 0 = 0 := by decide +kernel

theorem settled_neg (n : Int) : settled (-n) = -settled n := by
  rcases lt_trichotomy n 0 with negative | rfl | positive
  · rw [settled, settled, if_pos (by omega), if_neg (by omega), neg_neg]
  · rw [settled_zero]
    rfl
  · rw [settled, settled, if_neg (by omega), if_pos (by omega), neg_neg]

theorem settled_apply (s : Sign) (n : Nat) :
    settled (s.apply n) = s.apply (min (rounded n : Int) top) := by
  have positive : settled n = min (rounded n : Int) top := by
    rw [settled, if_pos (Int.natCast_nonneg n), Int.toNat_natCast]
  cases s with
  | positive => exact positive
  | negative => exact (settled_neg n).trans (congrArg Neg.neg positive)

/-- **Rounding keeps the order** of numbers of either sign. -/
theorem settled_mono {a b : Int} (h : a ≤ b) : settled a ≤ settled b := by
  have top_nonneg : 0 ≤ top := by decide
  rw [settled, settled]
  split
  next nonneg =>
    have := rounded_mono (Int.toNat_le_toNat h)
    rw [if_pos (nonneg.trans h)]
    omega
  next negative =>
    have := rounded_mono (Int.toNat_le_toNat (Int.neg_le_neg h))
    split <;> omega

theorem repack_zero (s : Sign) : repack (.zero s) = .zero s := by cases s <;> rfl

theorem lies_repack_finite (canonical : Canonical m e) (s : Sign) (pos : 0 < m) :
    Lies (repack (.finite s m e pos)) (s.apply (min ((e + 1074) * 2 ^ 52 + m) top)) := by
  obtain ⟨lt, normal, ge⟩ := canonical
  rw [repack_finite ⟨lt, normal, ge⟩, top]
  split
  · exact ⟨rfl, by rw [min_eq_left (by omega), place]⟩
  · exact ⟨rfl, by rw [min_eq_right (by omega), place]⟩

/-- **A sum of units lies where it is rounded to.** -/
theorem lies_repack_normalize (p : Int) (ge : -1074 ≤ e) :
    Lies (repack (normalize .binary64 p e .positive)) (settled (p * 2 ^ (e + 1074).toNat)) := by
  have lies (s : Sign) {m : Nat} (pos : 0 < m) : Lies (repack (round .binary64 s m e))
      (settled (s.apply (m * 2 ^ (e + 1074).toNat : Nat))) := by
    obtain ⟨m', e', pos', eq, canonical, place_eq⟩ := exists_round_eq_rounded pos ge s
    rw [eq, settled_apply, ← place_eq]
    exact lies_repack_finite canonical s pos'
  rw [UnpackedFloat.normalize]
  rcases lt_trichotomy p 0 with negative | rfl | positive
  · have back : p * 2 ^ (e + 1074).toNat =
        Sign.negative.apply ((-p).toNat * 2 ^ (e + 1074).toNat : Nat) := by
      rw [Sign.apply, Nat.cast_mul, Int.toNat_of_nonneg (by omega)]
      push_cast
      ring
    rw [Int.compare_eq_lt.2 negative, back]
    exact lies .negative (by omega)
  · rw [Int.compare_eq_eq.2 rfl, zero_mul, settled_zero]
    change Lies (repack (.zero .positive)) 0
    rw [repack_zero]
    exact ⟨rfl, rfl⟩
  · have back : p * 2 ^ (e + 1074).toNat =
        Sign.positive.apply (p.toNat * 2 ^ (e + 1074).toNat : Nat) := by
      rw [Sign.apply, Nat.cast_mul, Int.toNat_of_nonneg positive.le]
      push_cast
      ring
    rw [Int.compare_eq_gt.2 positive, back]
    exact lies .positive (by omega)

/-! ## Units of doubles -/

/-- **What a finite double holds.** -/
inductive Bounded : UnpackedFloat → Prop
  | zero (s : Sign) : Bounded (.zero s)
  | finite (s : Sign) {m : Nat} {e : Int} (pos : 0 < m) (canonical : Canonical m e)
    (fits : e ≤ 971) : Bounded (.finite s m e pos)

/-- **The units of a finite double.** -/
def units : UnpackedFloat → Int
  | .finite s m e _ => s.apply (m * 2 ^ (e + 1074).toNat : Nat)
  | _ => 0

/-- A number is finite or infinite. -/
theorem bounded_or_infinite (number : x.isNaN = false) :
    Bounded (view x) ∨ ∃ s, view x = .infinity s := by
  have held := held_view number
  generalize view x = u at held ⊢
  cases held with
  | infinity s => exact .inr ⟨s, rfl⟩
  | zero s => exact .inl (.zero s)
  | finite s pos canonical fits => exact .inl (.finite s pos canonical fits)

theorem bounded_view (finite : x.isFinite = true) : Bounded (view x) := by
  replace finite : (view x).isFinite = true := finite
  have number : x.isNaN = false := by
    change (view x).isNaN = false
    generalize view x = u at finite
    cases u <;> first | rfl | exact absurd finite Bool.false_ne_true
  refine (bounded_or_infinite number).resolve_right ?_
  rintro ⟨s, infinite⟩
  rw [infinite] at finite
  exact Bool.false_ne_true finite

/-- A double is not moved by rounding. -/
theorem Canonical.rounded_eq (h : Canonical m e) (pos : 0 < m) :
    (rounded (m * 2 ^ (e + 1074).toNat) : Int) = (e + 1074) * 2 ^ 52 + m := by
  have target := h.target_eq pos
  have log : (m * 2 ^ (e + 1074).toNat).log2 = m.log2 + (e + 1074).toNat := log2_mul_pow pos _
  have ge := h.ge
  have exact_bits : excess (m * 2 ^ (e + 1074).toNat) = (e + 1074).toNat := by
    rw [excess, log]
    omega
  rw [rounded, exact_bits, shiftRight_mul_pow]
  change (((e + 1074).toNat * 2 ^ 52 + m : Nat) : Int) = _
  omega

/-- **A finite double lies where its units are rounded to.** -/
theorem place_eq_settled (h : Bounded u) : place u = settled (units u) := by
  cases h with
  | zero s => exact settled_zero.symm
  | @finite s m e pos canonical fits =>
    have below : (e + 1074) * 2 ^ 52 + m ≤ top := (canonical.place_bounds pos fits).2.le
    rw [units, settled_apply, canonical.rounded_eq pos, min_eq_left below, place]

/-- The magnitudes of doubles are in the order of their places. -/
theorem Canonical.units_le {m' : Nat} {e' : Int} (h : Canonical m e) (h' : Canonical m' e')
    (le : (e + 1074) * 2 ^ 52 + m ≤ (e' + 1074) * 2 ^ 52 + m') :
    m * 2 ^ (e + 1074).toNat ≤ m' * 2 ^ (e' + 1074).toNat := by
  obtain ⟨lt, normal, ge⟩ := h
  obtain ⟨lt', normal', ge'⟩ := h'
  rcases lt_trichotomy e e' with below | rfl | above
  · calc m * 2 ^ (e + 1074).toNat ≤ 2 ^ 53 * 2 ^ (e + 1074).toNat := Nat.mul_le_mul_right _ lt.le
      _ = 2 ^ 52 * 2 ^ ((e + 1074).toNat + 1) := by ring
      _ ≤ m' * 2 ^ (e' + 1074).toNat :=
        Nat.mul_le_mul (by omega) (Nat.pow_le_pow_right (by decide) (by omega))
  · exact Nat.mul_le_mul_right _ (by omega)
  · omega

/-- **Finite doubles are in the order of their units.** -/
theorem units_le_of_place_le (hu : Bounded u) (hv : Bounded v) (h : place u ≤ place v) :
    units u ≤ units v := by
  rcases hu with s | ⟨s, pos, canonical, fits⟩ <;> rcases hv with s' | ⟨s', pos', canonical', fits'⟩
  case zero.zero => exact le_rfl
  case zero.finite =>
    have bounds' := canonical'.place_bounds pos' fits'
    cases s' <;> simp only [place, units, Sign.apply] at h ⊢ <;> omega
  case finite.zero =>
    have bounds := canonical.place_bounds pos fits
    cases s <;> simp only [place, units, Sign.apply] at h ⊢ <;> omega
  case finite.finite =>
    have bounds := canonical.place_bounds pos fits
    have bounds' := canonical'.place_bounds pos' fits'
    have less := canonical.units_le canonical'
    have more := canonical'.units_le canonical
    cases s <;> cases s' <;> simp only [place, units, Sign.apply] at h ⊢ <;> omega

/-! ## Differences -/

theorem apply_neg (s : Sign) (n : Int) : (-s).apply n = -s.apply n := by
  cases s
  · exact (neg_neg n).symm
  · rfl

/-- A mantissa written with a smaller exponent stands for the same units. -/
theorem apply_shiftLeft (s : Sign) (m : Nat) {e t : Int} (ge : -1074 ≤ t) (le : t ≤ e) :
    s.apply (m <<< (e - t).toNat : Nat) * 2 ^ (t + 1074).toNat =
      s.apply (m * 2 ^ (e + 1074).toNat : Nat) := by
  have same : m <<< (e - t).toNat * 2 ^ (t + 1074).toNat = m * 2 ^ (e + 1074).toNat := by
    rw [Nat.shiftLeft_eq, Nat.mul_assoc, ← pow_add,
      show (e - t).toNat + (t + 1074).toNat = (e + 1074).toNat by omega]
  rw [← same]
  cases s <;> simp only [Sign.apply, Nat.cast_mul, Nat.cast_pow, Nat.cast_ofNat, neg_mul]

/-- **A difference of finite doubles lies where the difference of their units is rounded to.** -/
theorem lies_sub (hu : Bounded u) (hv : Bounded v) :
    Lies (repack (sub .binary64 u v)) (settled (units u - units v)) := by
  have place_u := place_eq_settled hu
  have place_v := place_eq_settled hv
  rcases hu with s | @⟨s, m, e, pos, canonical, fits⟩ <;>
    rcases hv with s' | @⟨s', m', e', pos', canonical', fits'⟩
  case zero.zero =>
    have difference : ∃ t, sub .binary64 (.zero s) (.zero s') = .zero t := by
      rw [sub]
      split <;> exact ⟨_, rfl⟩
    obtain ⟨t, difference⟩ := difference
    rw [difference, repack_zero]
    exact ⟨rfl, settled_zero.symm⟩
  case finite.zero =>
    change Lies (repack (.finite s m e pos)) _
    rw [repack_finite canonical, if_pos fits, units.eq_def (.zero s'), Int.sub_zero, ← place_u]
    exact ⟨rfl, rfl⟩
  case zero.finite =>
    change Lies (repack (.finite (-s') m' e' pos')) _
    rw [repack_finite canonical', if_pos fits', units.eq_def (.zero s), Int.zero_sub, settled_neg,
      ← place_v]
    exact ⟨rfl, apply_neg s' _⟩
  case finite.finite =>
    have least := canonical.ge
    have least' := canonical'.ge
    have aligned := apply_shiftLeft s m (t := min e e') (by omega) (Int.min_le_left e e')
    have aligned' := apply_shiftLeft s' m' (t := min e e') (by omega) (Int.min_le_right e e')
    rw [units, units, ← aligned, ← aligned', ← Int.sub_mul]
    exact lies_repack_normalize _ (by omega)

theorem place_sub (hx : Bounded (view x)) (hy : Bounded (view y)) :
    (x - y).isNaN = false ∧ place (view (x - y)) = settled (units (view x) - units (view y)) :=
  lies_sub hx hy

/-- A finite double lies between the infinities. -/
theorem Bounded.place_lt (h : Bounded u) : -top < place u ∧ place u < top := by
  cases h with
  | zero s => exact (by decide : -top < 0 ∧ 0 < top)
  | finite s pos canonical fits =>
    have bounds := canonical.place_bounds pos fits
    cases s <;> simp only [place, Sign.apply, top] <;> omega

/-- The infinities are the ends of the line. -/
theorem place_mem_Icc (number : x.isNaN = false) : -top ≤ place (view x) ∧ place (view x) ≤ top := by
  rcases bounded_or_infinite number with bounded | ⟨s, infinite⟩
  · exact ⟨bounded.place_lt.1.le, bounded.place_lt.2.le⟩
  · rw [infinite]
    cases s <;> exact (by decide)

variable {best t : Float}

/-- **What is a finite distance from the greatest is finite**, and so is the greatest. -/
theorem bounded_of_sub_le (hbest : best.isNaN = false) (hy : y.isNaN = false)
    (limited : place (view t) < top) (le : y ≤ best) (near : best - y ≤ t) :
    Bounded (view best) ∧ Bounded (view y) := by
  have place_le := (le_iff_place hy hbest).1 le
  have view_sub : view (best - y) = repack (sub .binary64 (view best) (view y)) := rfl
  have hbest := bounded_or_infinite hbest
  have hy := bounded_or_infinite hy
  -- an infinite distance is too far, and without a number there is none
  have not_far : view (best - y) ≠ .infinity .positive := by
    intro far
    have number : (view (best - y)).isNaN = false := by rw [far]; rfl
    have := (le_iff_place number (isNaN_of_le near)).1 near
    rw [far] at this
    exact absurd limited (not_lt.2 this)
  have is_number : view (best - y) ≠ .notANumber := by
    intro none
    rw [le_iff, none] at near
    exact Bool.false_ne_true near
  rw [view_sub] at not_far is_number
  generalize view best = u at *
  generalize view y = v at *
  rcases hbest with hu | ⟨s, rfl⟩ <;> rcases hy with hv | ⟨s', rfl⟩
  · exact ⟨hu, hv⟩
  · cases s' with
    | positive => exact absurd place_le (not_le.2 hu.place_lt.2)
    | negative => cases hu <;> exact absurd (repack_infinity .positive) not_far
  · cases s with
    | positive => cases hv <;> exact absurd (repack_infinity .positive) not_far
    | negative => exact absurd place_le (not_le.2 hv.place_lt.1)
  · cases s <;> cases s'
    · exact absurd rfl is_number
    · exact absurd place_le (by decide)
    · exact absurd (repack_infinity .positive) not_far
    · exact absurd rfl is_number

/-- **All that lies nearer to the greatest is as close to it.**  Differences are rounded, but their order
is kept. -/
theorem sub_le_of_le (hbest : best.isNaN = false) (hx : x.isNaN = false) (hy : y.isNaN = false)
    (limited : place (view t) < top) (yx : y ≤ x) (xbest : x ≤ best) (near : best - y ≤ t) :
    best - x ≤ t := by
  have ht := isNaN_of_le near
  have place_yx := (le_iff_place hy hx).1 yx
  have place_xbest := (le_iff_place hx hbest).1 xbest
  have ybest : y ≤ best := (le_iff_place hy hbest).2 (place_yx.trans place_xbest)
  obtain ⟨bounded_best, bounded_y⟩ := bounded_of_sub_le hbest hy limited ybest near
  have bounded_x : Bounded (view x) := by
    refine (bounded_or_infinite hx).resolve_right ?_
    rintro ⟨s, infinite⟩
    have above := bounded_y.place_lt.1
    have below := bounded_best.place_lt.2
    rw [infinite] at place_yx place_xbest
    cases s with
    | positive => exact absurd (place_xbest.trans_lt below) (by decide)
    | negative => exact absurd (above.trans_le place_yx) (by decide)
  obtain ⟨number, place_x⟩ := place_sub bounded_best bounded_x
  obtain ⟨number', place_y⟩ := place_sub bounded_best bounded_y
  have units_le := units_le_of_place_le bounded_y bounded_x place_yx
  refine (le_iff_place number ht).2 ?_
  calc place (view (best - x)) = settled (units (view best) - units (view x)) := place_x
    _ ≤ settled (units (view best) - units (view y)) := settled_mono (by omega)
    _ = place (view (best - y)) := place_y.symm
    _ ≤ place (view t) := (le_iff_place number' ht).1 near

end Backgammon.Doubles
