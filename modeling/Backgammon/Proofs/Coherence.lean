import Backgammon.Rollout.Moments
import Mathlib.Algebra.Order.Field.Basic
import Mathlib.Algebra.Order.Ring.Rat
import Mathlib.Tactic.Linarith
import Mathlib.Tactic.Ring

/-!
# Proofs/Coherence — vectors that make sense

              1                          v ──────●───── w
            ╱   ╲                               mix r v w
    wins ──▸ gammons ──▸ backgammons

Two things may be asked of a vector: that its chances are nested as they should be, and that its
cubeless equity is the one that its chances have.  Over exact numbers both describe **convex** sets, so
that means stay in them, and neither depends on the side from which a position is seen.

* `Equities.Coherent`, `Equities.gap` — the cubeless equity is that of the chances; the distance between
  the two is linear in the vector but for a constant.
* `Equities.isConsistent_iff` — consistency as a list of inequalities.
* `Equities.Stable` — what holds of finished games, of either side, and of mixtures.
* `Equities.stable_coherent`, `Equities.stable_isConsistent` — the two properties are stable.
* `Rollout.Moments.Holds`, `Rollout.Moments.Holds.push` — a running mean stays among such vectors.
-/

namespace Backgammon

namespace Equities

variable {v w d : Equities Rat} {r : Rat}

/-! ## Coherent vectors -/

/-- **The cubeless equity is the one that the chances have.** -/
def Coherent (v : Equities Rat) : Prop := v.cubeless = v.chancesEquity

/-- How far the cubeless equity falls short of the chances, which is linear in the vector. -/
def gap (v : Equities Rat) : Rat :=
  2 * v.win + v.winGammon - v.loseGammon + v.winBackgammon - v.loseBackgammon - v.cubeless

theorem chancesEquity_eq (v : Equities Rat) : v.chancesEquity = v.gap + v.cubeless - 1 := by
  change 2 * v.win - 1 + v.winGammon - v.loseGammon + v.winBackgammon - v.loseBackgammon = _
  rw [gap]
  ring

theorem coherent_iff : v.Coherent ↔ v.gap = 1 := by
  rw [Coherent, chancesEquity_eq]
  constructor
  all_goals
    intro h
    linarith

@[simp] theorem gap_zero : (zero : Equities Rat).gap = 0 := by decide +kernel

theorem gap_add (v w : Equities Rat) : (zipWith (· + ·) v w).gap = v.gap + w.gap := by
  simp only [gap, zipWith]
  ring

theorem gap_sub (v w : Equities Rat) : (zipWith (· - ·) v w).gap = v.gap - w.gap := by
  simp only [gap, zipWith]
  ring

/-- A weighted vector added to a sum. -/
theorem gap_add_mul (v w : Equities Rat) (r : Rat) :
    (zipWith (fun t e => t + e * r) v w).gap = v.gap + w.gap * r := by
  simp only [gap, zipWith]
  ring

theorem gap_map_div (v : Equities Rat) (r : Rat) : (v.map (· / r)).gap = v.gap / r := by
  simp only [gap, map]
  ring

/-- **A vector with the luck taken off is coherent still**, when luck is a difference of coherent
vectors. -/
theorem Coherent.sub (hv : v.Coherent) (hd : d.gap = 0) : (zipWith (· - ·) v d).Coherent := by
  rw [coherent_iff, gap_sub, hd, coherent_iff.1 hv, sub_zero]

/-! ## Mixtures -/

/-- **A mixture**: what lies between two vectors, so far on the way from the first to the second. -/
def mix (r : Rat) (v w : Equities Rat) : Equities Rat := zipWith (fun x y => x + r * (y - x)) v w

theorem gap_mix (r : Rat) (v w : Equities Rat) : (mix r v w).gap = v.gap + r * (w.gap - v.gap) := by
  simp only [gap, mix, zipWith]
  ring

/-- A number between two numbers is so far above the one as it is below the other. -/
theorem mix_nonneg {x y : Rat} (hr : 0 ≤ r) (hr' : r ≤ 1) (hx : 0 ≤ x) (hy : 0 ≤ y) :
    0 ≤ x + r * (y - x) := by
  calc (0 : Rat) ≤ (1 - r) * x + r * y :=
        add_nonneg (mul_nonneg (sub_nonneg.2 hr') hx) (mul_nonneg hr hy)
    _ = x + r * (y - x) := by ring

theorem mix_le {x y x' y' : Rat} (hr : 0 ≤ r) (hr' : r ≤ 1) (hx : x ≤ x') (hy : y ≤ y') :
    x + r * (y - x) ≤ x' + r * (y' - x') := by
  have := mix_nonneg hr hr' (sub_nonneg.2 hx) (sub_nonneg.2 hy)
  linarith

/-! ## Consistent vectors -/

/-- **Consistency as inequalities**: wins, gammons and backgammons, on either side. -/
theorem isConsistent_iff : v.isConsistent = true ↔
    (0 ≤ v.win ∧ v.win ≤ 1) ∧ (0 ≤ v.winGammon ∧ v.winGammon ≤ v.win) ∧
      (0 ≤ v.winBackgammon ∧ v.winBackgammon ≤ v.winGammon) ∧
      (0 ≤ v.loseGammon ∧ v.loseGammon ≤ 1 - v.win) ∧
      (0 ≤ v.loseBackgammon ∧ v.loseBackgammon ≤ v.loseGammon) := by
  simp only [isConsistent, Scalar.within, Bool.and_eq_true, decide_eq_true_eq, and_assoc]

theorem repaired_of_isConsistent (h : v.isConsistent = true) : v.repaired = v := if_pos h

/-! ## What trials keep -/

/-- **A property that the ways of a trial keep**: finished games have it, it does not depend on the cube
nor on the side, and it passes from two vectors to all between them. -/
structure Stable (P : Equities Rat → Prop) : Prop where
  ofOutcome : ∀ o x, P (ofOutcome o x)
  withCubeful : ∀ v x, P v → P (v.withCubeful x)
  invert : ∀ v s, P v → P (v.invert s)
  mix : ∀ r v w, 0 ≤ r → r ≤ 1 → P v → P w → P (mix r v w)

theorem stable_coherent : Stable Coherent where
  ofOutcome o x := by
    obtain ⟨_ | _, _ | _ | _⟩ := o <;> exact rfl
  withCubeful v x hv := hv
  invert v s hv := by
    rw [coherent_iff] at hv ⊢
    simp only [gap, Equities.invert] at hv ⊢
    linarith
  mix r v w _ _ hv hw := by
    rw [coherent_iff] at hv hw ⊢
    rw [gap_mix, hv, hw]
    ring

theorem stable_isConsistent : Stable fun v => v.isConsistent = true where
  ofOutcome o x := by
    change (Equities.ofOutcome o (0 : Rat)).isConsistent = true
    obtain ⟨_ | _, _ | _ | _⟩ := o <;> decide +kernel
  withCubeful v x hv := hv
  invert v s hv := by
    obtain ⟨⟨_, _⟩, gammon, backgammon, ⟨_, _⟩, loseBackgammon⟩ := isConsistent_iff.1 hv
    refine isConsistent_iff.2 ⟨⟨?_, ?_⟩, ⟨?_, ?_⟩, loseBackgammon, ⟨?_, ?_⟩, backgammon⟩
    all_goals
      simp only [Equities.invert]
      linarith
  mix r v w hr hr' hv hw := by
    obtain ⟨⟨_, _⟩, ⟨_, _⟩, ⟨_, _⟩, ⟨_, hv'⟩, _, _⟩ := isConsistent_iff.1 hv
    obtain ⟨⟨_, _⟩, ⟨_, _⟩, ⟨_, _⟩, ⟨_, hw'⟩, _, _⟩ := isConsistent_iff.1 hw
    have top : v.win + r * (w.win - v.win) ≤ 1 + r * (1 - 1) := mix_le hr hr' ‹_› ‹_›
    have lost := mix_le hr hr' hv' hw'
    refine isConsistent_iff.2 ⟨⟨mix_nonneg hr hr' ‹_› ‹_›, ?_⟩, ⟨mix_nonneg hr hr' ‹_› ‹_›,
      mix_le hr hr' ‹_› ‹_›⟩, ⟨mix_nonneg hr hr' ‹_› ‹_›, mix_le hr hr' ‹_› ‹_›⟩,
      ⟨mix_nonneg hr hr' ‹_› ‹_›, ?_⟩, mix_nonneg hr hr' ‹_› ‹_›, mix_le hr hr' ‹_› ‹_›⟩
    all_goals
      simp only [Equities.mix, zipWith]
      linarith

end Equities

/-! ## Running means -/

namespace Rollout.Moments

open Equities

variable {P : Equities Rat → Prop} {a : Moments Rat} {v : Equities Rat}

/-- A result moves the mean towards itself, by one part in so many as there are results. -/
theorem mean_push_eq_mix (a : Moments Rat) (v : Equities Rat) :
    (a.push v).mean = mix (1 / ((a.count + 1 : Nat) : Rat)) a.mean v := by
  ext k
  rw [get_mean_push, mix, get_zipWith]
  ring

/-- **A running mean has a property** once there are results, and is zero before. -/
def Holds (P : Equities Rat → Prop) (a : Moments Rat) : Prop :=
  a.count = 0 ∧ a.mean = .zero ∨ P a.mean

theorem holds_empty : Holds P empty := .inl ⟨rfl, rfl⟩

/-- **One more result that has the property.** -/
theorem Holds.push (ha : a.Holds P) (stable : Stable P) (hv : P v) : (a.push v).Holds P := by
  refine .inr ?_
  rw [mean_push_eq_mix]
  rcases ha with ⟨count_eq, mean_eq⟩ | ha
  · have first : mix (1 / ((a.count + 1 : Nat) : Rat)) a.mean v = v := by
      ext k
      simp [mix, count_eq, mean_eq, zero]
    rwa [first]
  · have pos : (1 : Rat) ≤ ((a.count + 1 : Nat) : Rat) := by exact_mod_cast Nat.le_add_left 1 _
    exact stable.mix _ _ _ (by positivity) ((div_le_one (by linarith)).2 pos) ha hv

theorem Holds.mean (ha : a.Holds P) (pos : 0 < a.count) : P a.mean :=
  ha.resolve_left fun none_yet => pos.ne' none_yet.1

end Rollout.Moments

end Backgammon
