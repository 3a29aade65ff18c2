import Backgammon.DoubleBits
import Backgammon.Proofs.Doubles.Zeros

/-!
# Proofs/Doubles/Order — doubles on a line

    -∞ ⋯ -2 ⋯ -1 ⋯ -0 +0 ⋯ 1 ⋯ 2 ⋯ ∞        rank
    -∞ ⋯ -2 ⋯ -1 ⋯   0   ⋯ 1 ⋯ 2 ⋯ ∞        place

The bits of a double other than its sign, read as a number, grow with its magnitude: the exponent stands
above the fraction, and a fraction that is full carries into the exponent.  With the sign in front they
give every double that is a number its **place**, an integer, and the two zeros the same one.  Numbers
are compared by their places, and their ranks are in the same order.

* `Held` — what a double holds that is a number.
* `place` — where it lies on the line.
* `le_iff_place`, `lt_iff_place`, `beq_iff_place` — comparisons read off the places.
* `lt_ofNat` — what is smaller than a count.
* `place_le_of_rank_le` — the order by ranks refines that by places.
-/

namespace Backgammon.Doubles

open Float.Model (Format UnpackedFloat totalExponent)
open Float.Model.UnpackedFloat

/-! ## Places -/

/-- **What a double holds** that is a number. -/
inductive Held : UnpackedFloat → Prop
  | infinity (s : Sign) : Held (.infinity s)
  | zero (s : Sign) : Held (.zero s)
  | finite (s : Sign) {m : Nat} {e : Int} (pos : 0 < m) (canonical : Canonical m e)
    (fits : e ≤ 971) : Held (.finite s m e pos)

/-- **Where a number lies on the line of doubles**: its sign, and the bits of its magnitude. -/
def place : UnpackedFloat → Int
  | .infinity s => s.apply (2047 * 2 ^ 52)
  | .notANumber => 0
  | .zero _ => 0
  | .finite s m e _ => s.apply ((e + 1074) * 2 ^ 52 + m)

variable {m m' : Nat} {e e' : Int} {u v : UnpackedFloat} {x y : Float}

theorem held_view (number : x.isNaN = false) : Held (view x) := by
  replace number : (view x).isNaN = false := number
  cases view_x : view x with
  | infinity s => exact .infinity s
  | notANumber => simp [view_x, UnpackedFloat.isNaN] at number
  | zero s => exact .zero s
  | finite s m e pos =>
    obtain ⟨canonical, fits⟩ := canonical_of_unpack view_x
    exact .finite s pos canonical fits

/-- The magnitude of a finite double lies between those of zero and infinity. -/
theorem Canonical.place_bounds (h : Canonical m e) (pos : 0 < m) (fits : e ≤ 971) :
    0 < (e + 1074) * 2 ^ 52 + m ∧ (e + 1074) * 2 ^ 52 + m < 2047 * 2 ^ 52 := by
  obtain ⟨lt, normal, ge⟩ := h
  omega

/-- **Magnitudes are compared by their exponents first**, in what they are as in their bits. -/
theorem Canonical.compare_eq (h : Canonical m e) (h' : Canonical m' e') :
    (compare e e').then (compare m m') =
      compare ((e + 1074) * 2 ^ 52 + m) ((e' + 1074) * 2 ^ 52 + m') := by
  obtain ⟨lt, normal, ge⟩ := h
  obtain ⟨lt', normal', ge'⟩ := h'
  rcases lt_trichotomy e e' with below | rfl | above
  · have lower : (e + 1074) * 2 ^ 52 + m < (e' + 1074) * 2 ^ 52 + m' := by omega
    rw [Int.compare_eq_lt.2 below, Int.compare_eq_lt.2 lower]
    rfl
  · rw [Int.compare_eq_eq.2 rfl, Ordering.then]
    rcases lt_trichotomy m m' with below | rfl | above
    · rw [Nat.compare_eq_lt.2 below, Int.compare_eq_lt.2 (by omega)]
    · rw [Nat.compare_eq_eq.2 rfl, Int.compare_eq_eq.2 rfl]
    · rw [Nat.compare_eq_gt.2 above, Int.compare_eq_gt.2 (by omega)]
  · have higher : (e' + 1074) * 2 ^ 52 + m' < (e + 1074) * 2 ^ 52 + m := by omega
    rw [Int.compare_eq_gt.2 above, Int.compare_eq_gt.2 higher]
    rfl

/-! ## Comparisons -/

theorem compare_neg (a b : Int) : compare (-a) (-b) = compare b a := by
  rcases lt_trichotomy a b with below | rfl | above
  · rw [Int.compare_eq_gt.2 (Int.neg_lt_neg below), Int.compare_eq_gt.2 below]
  · rw [Int.compare_eq_eq.2 rfl, Int.compare_eq_eq.2 rfl]
  · rw [Int.compare_eq_lt.2 (Int.neg_lt_neg above), Int.compare_eq_lt.2 above]

/-- **Numbers are compared by their places.** -/
theorem compare_eq (hu : Held u) (hv : Held v) :
    u.compare v = some (compare (place u) (place v)) := by
  rcases hu with s | s | ⟨s, pos, canonical, fits⟩ <;>
    rcases hv with s' | s' | ⟨s', pos', canonical', fits'⟩
  case finite.finite =>
    have magnitudes := canonical.compare_eq canonical'
    have bounds := canonical.place_bounds pos fits
    have bounds' := canonical'.place_bounds pos' fits'
    cases s <;> cases s' <;>
      simp only [UnpackedFloat.compare, place, Sign.apply, magnitudes, compare_neg, Int.compare_swap]
    · rw [Int.compare_eq_lt.2 (by omega)]
    · rw [Int.compare_eq_gt.2 (by omega)]
  case infinity.finite | zero.finite =>
    have bounds' := canonical'.place_bounds pos' fits'
    cases s <;> cases s' <;> simp only [UnpackedFloat.compare, place, Sign.apply]
    all_goals first
      | rw [Int.compare_eq_lt.2 (by omega)]
      | rw [Int.compare_eq_gt.2 (by omega)]
  case finite.infinity | finite.zero =>
    have bounds := canonical.place_bounds pos fits
    cases s <;> cases s' <;> simp only [UnpackedFloat.compare, place, Sign.apply]
    all_goals first
      | rw [Int.compare_eq_lt.2 (by omega)]
      | rw [Int.compare_eq_gt.2 (by omega)]
  all_goals cases s <;> cases s' <;> rfl

section

variable (hx : x.isNaN = false) (hy : y.isNaN = false)
include hx hy

theorem le_iff_place : x ≤ y ↔ place (view x) ≤ place (view y) := by
  rw [le_iff, UnpackedFloat.le, compare_eq (held_view hx) (held_view hy), Option.any_some,
    Int.isLE_compare]

theorem lt_iff_place : x < y ↔ place (view x) < place (view y) := by
  rw [lt_iff, UnpackedFloat.lt, compare_eq (held_view hx) (held_view hy), beq_iff_eq,
    Option.some.injEq, Int.compare_eq_lt]

theorem beq_iff_place : x == y ↔ place (view x) = place (view y) := by
  have beq_eq : (x == y) = (view x).beq (view y) := rfl
  rw [beq_eq, UnpackedFloat.beq, compare_eq (held_view hx) (held_view hy), beq_iff_eq,
    Option.some.injEq, Int.compare_eq_eq]

end

theorem not_le_notANumber (u : UnpackedFloat) : u.le .notANumber = false := by
  cases u <;> rfl

/-- Nothing is at most what is no number. -/
theorem isNaN_of_le (h : x ≤ y) : y.isNaN = false := by
  rw [le_iff] at h
  change (view y).isNaN = false
  cases view_y : view y with
  | notANumber =>
    rw [view_y, not_le_notANumber] at h
    exact absurd h Bool.false_ne_true
  | infinity s => rfl
  | zero s => rfl
  | finite s m e pos => rfl

/-! ## Counts -/

/-- Where a number far from zero begins. -/
theorem Large.le_place {order : Int} (h : Large order u) (le : order ≤ 1024) :
    (order + 1023) * 2 ^ 52 ≤ place u := by
  rcases h with rfl | ⟨m, e, pos, rfl, -, normal, ge⟩ <;> simp only [place, Sign.apply] <;> omega

/-- **A count lies beyond all numbers of smaller orders.** -/
theorem lt_ofNat {n : Nat} {order : Int} (hx : x.isNaN = false) (pos : 0 < n) (le : order ≤ n.log2)
    (representable : order ≤ 1024) (below : place (view x) < (order + 1023) * 2 ^ 52) :
    x < Float.ofNat n := by
  have large := (large_ofNat pos).mono le
  have number : (Float.ofNat n).isNaN = false := by
    change (view (Float.ofNat n)).isNaN = false
    rcases large with eq | ⟨m, e, pos', eq, -⟩ <;> rw [eq] <;> rfl
  exact (lt_iff_place hx number).2 (below.trans_le (large.le_place representable))

/-! ## Ranks -/

/-- The bits of a double are its sign, its exponent and its fraction. -/
theorem toNat_eq (b : BitVec Format.binary64.numBits) :
    b.toNat = (unpackSign b).toNat * 2 ^ 63 + (unpackExponent b).toNat * 2 ^ 52 +
      (unpackMantissa b).toNat := by
  have lt : b.toNat < 2 ^ 64 := b.isLt
  rw [unpackSign_def, unpackExponent_def, unpackMantissa_def]
  simp only [BitVec.extractLsb'_toNat, Nat.shiftRight_eq_div_pow]
  omega

/-- **The place of a number is its sign with the other bits.** -/
theorem place_unpack {b : BitVec Format.binary64.numBits} (h : Held (unpack .binary64 b)) :
    place (unpack .binary64 b) = (Sign.ofBitVec (unpackSign b)).apply
      ((unpackExponent b).toNat * 2 ^ 52 + (unpackMantissa b).toNat) := by
  rw [unpack] at h ⊢
  split at h
  next top =>
    split at h
    next zero =>
      rw [if_pos top, if_pos zero, place, top, zero]
      rfl
    next => cases h
  next not_top =>
    rw [if_neg not_top]
    split at h
    next lowest =>
      rw [if_pos lowest]
      split
      next zero =>
        rw [place, lowest, zero]
        cases Sign.ofBitVec (unpackSign b) <;> simp [Sign.apply]
      next =>
        rw [place, lowest, exponentBias_eq]
        congr 1
    next not_lowest =>
      rw [if_neg not_lowest, place, toNat_one_append, exponentBias_eq]
      congr 1
      push_cast
      omega

open DoubleBits in
/-- The sign of a number, and its rank. -/
theorem rank_eq (number : x.isNaN = false) :
    (isNegative x = true ∧ place (view x) ≤ 0 ∧ (rank x : Int) = magnitudes - 1 + place (view x)) ∨
      (isNegative x = false ∧ 0 ≤ place (view x) ∧ (rank x : Int) = magnitudes + place (view x)) := by
  let b : BitVec Format.binary64.numBits := x.toModel.toBits.toBitVec
  have place_eq : place (view x) = _ := place_unpack (b := b) (held_view number)
  have bits : x.toBits.toNat = _ := toNat_eq b
  have exponent_lt : (unpackExponent b).toNat < 2 ^ 11 := (unpackExponent b).isLt
  have fraction_lt : (unpackMantissa b).toNat < 2 ^ 52 := (unpackMantissa b).isLt
  rw [place_eq, rank, isNegative, magnitude, bits, magnitudes]
  rcases BitVec.eq_zero_or_eq_one (unpackSign b) with positive | negative
  · have sign : Sign.ofBitVec (0#1) = .positive := rfl
    rw [positive, sign, Sign.apply, BitVec.toNat_ofNat]
    have below : ¬ 9223372036854775808 ≤ 0 % 2 ^ 1 * 2 ^ 63 + (unpackExponent b).toNat * 2 ^ 52 +
        (unpackMantissa b).toNat := by omega
    simp only [decide_eq_false below, Bool.false_eq_true, if_false, false_and, true_and, false_or]
    omega
  · have sign : Sign.ofBitVec (1#1) = .negative := rfl
    rw [negative, sign, Sign.apply, BitVec.toNat_ofNat]
    have above : 9223372036854775808 ≤ 1 % 2 ^ 1 * 2 ^ 63 + (unpackExponent b).toNat * 2 ^ 52 +
        (unpackMantissa b).toNat := by omega
    simp only [decide_eq_true above, if_true, Bool.true_eq_false, false_and, true_and, or_false]
    omega

/-- **The order by ranks refines that by places**: it only tells the two zeros apart. -/
theorem place_le_of_rank_le (hx : x.isNaN = false) (hy : y.isNaN = false)
    (h : DoubleBits.rank x ≤ DoubleBits.rank y) : place (view x) ≤ place (view y) := by
  rcases rank_eq hx with ⟨-, below, rank_x⟩ | ⟨-, above, rank_x⟩
  all_goals
    rcases rank_eq hy with ⟨-, below', rank_y⟩ | ⟨-, above', rank_y⟩
    all_goals omega

end Backgammon.Doubles
