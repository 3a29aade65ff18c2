import Backgammon.Proofs.MatchEquity.EvenGames
import Mathlib.Tactic.LinearCombination
import Mathlib.Tactic.Linarith

/-!
# Proofs/MatchEquity/Trailers — the trailer after the Crawford game

    trailer ──two points a game──▸ trailerGames ──differences──▸ gap

* `mix_lt_mix`, `mix_le_mix` — single wins and gammons mixed: better with better ones.
* `trailer_mem`, `trailer_antitone` — the trailer always has a chance, and none the better for more points
  to go.
* `trailerGames_eq_gap`, `gap_succ_succ` — the chances as sums of what the games between them cost, which
  follow a recurrence with no negative term.
-/

namespace Backgammon.MatchTable

/-! ## Single wins and gammons mixed -/

section

variable {g : Rat}

@[simp] theorem mix_self (x : Rat) : mix g x x = x := by
  rw [mix]
  ring

variable (lower : 0 ≤ g) (upper : g ≤ 1) {single single' gammon gammon' : Rat}

include lower upper

theorem mix_le_mix (le : single ≤ single') (gammon_le : gammon ≤ gammon') :
    mix g single gammon ≤ mix g single' gammon' :=
  add_le_add (mul_le_mul_of_nonneg_left le (sub_nonneg.2 upper))
    (mul_le_mul_of_nonneg_left gammon_le lower)

/-- One of the two kinds of win comes up. -/
theorem mix_lt_mix (lt : single < single') (gammon_lt : gammon < gammon') :
    mix g single gammon < mix g single' gammon' := by
  rcases upper.eq_or_lt with rfl | partly
  · simpa [mix] using gammon_lt
  · exact add_lt_add_of_lt_of_le (mul_lt_mul_of_pos_left lt (sub_pos.2 partly))
      (mul_le_mul_of_nonneg_left gammon_lt.le lower)

theorem mix_pos (single_pos : 0 < single) (gammon_pos : 0 < gammon) : 0 < mix g single gammon := by
  simpa using mix_lt_mix lower upper single_pos gammon_pos

theorem mix_lt_one (single_lt : single < 1) (gammon_lt : gammon < 1) : mix g single gammon < 1 := by
  simpa using mix_lt_mix lower upper single_lt gammon_lt

theorem mix_le_one (single_le : single ≤ 1) (gammon_le : gammon ≤ 1) : mix g single gammon ≤ 1 := by
  simpa using mix_le_mix lower upper single_le gammon_le

end

/-! ## The trailer -/

section

variable {g : Rat} (lower : 0 ≤ g) (upper : g ≤ 1)

include lower upper

/-- **The trailer always has a chance**, and never more than the leader. -/
theorem trailer_mem (b : Nat) : 0 < trailer g b ∧ trailer g b ≤ 1 := by
  induction b using Nat.strong_induction_on with
  | _ b ih =>
    rcases Nat.eq_zero_or_pos b with rfl | toGo
    · exact ⟨zero_lt_one, le_rfl⟩
    have single := ih (b - 2) (by omega)
    have gammon := ih (b - 4) (by omega)
    have pos := mix_pos lower upper single.1 gammon.1
    have le_one := mix_le_one lower upper single.2 gammon.2
    rw [trailer_eq g toGo]
    constructor <;> linarith

/-- **More points to go are no better** for the trailer. -/
theorem trailer_antitone : Antitone (trailer g) := by
  refine antitone_nat_of_succ_le fun b => ?_
  induction b using Nat.strong_induction_on with
  | _ b ih =>
    rcases Nat.eq_zero_or_pos b with rfl | toGo
    · exact (trailer_mem lower upper 1).2
    have earlier (k : Nat) (pos : 1 ≤ k) : trailer g (b + 1 - k) ≤ trailer g (b - k) := by
      rcases Nat.lt_or_ge b k with short | far
      · rw [Nat.sub_eq_zero_of_le (by omega), Nat.sub_eq_zero_of_le (by omega)]
      · rw [Nat.sub_add_comm far]
        exact ih (b - k) (by omega)
    have mixed := mix_le_mix lower upper (earlier 2 (by omega)) (earlier 4 (by omega))
    rw [trailer_eq g toGo, trailer_eq g (Nat.succ_pos b)]
    linarith

end

/-! ## Game by game

The trailer plays for two points, so an odd point away is as far as the next even one. -/

section

variable (g : Rat)

/-- The chance of a trailer who has so many games of two points to go. -/
def trailerGames (k : Nat) : Rat := trailer g (2 * k)

@[simp] theorem trailerGames_zero : trailerGames g 0 = 1 := rfl

theorem trailerGames_succ (k : Nat) :
    trailerGames g (k + 1) = 1 / 2 * mix g (trailerGames g k) (trailerGames g (k - 1)) := by
  rw [trailerGames, trailer_eq g (by omega), trailerGames, trailerGames]
  congr 3
  omega

theorem trailer_odd (k : Nat) : trailer g (2 * k + 1) = trailerGames g (k + 1) := by
  induction k using Nat.strong_induction_on with
  | _ k ih =>
    have single : trailer g (2 * k + 1 - 2) = trailerGames g k := by
      cases k with
      | zero => rfl
      | succ k => exact ih k k.lt_succ_self
    have gammon : trailer g (2 * k + 1 - 4) = trailerGames g (k - 1) := by
      match k with
      | 0 | 1 => rfl
      | k + 2 => exact ih k (by omega)
    rw [trailer_eq g (by omega), single, gammon, trailerGames_succ]

/-- What a game further away costs the trailer. -/
def gap (k : Nat) : Rat := trailerGames g (k - 1) - trailerGames g k

@[simp] theorem gap_zero : gap g 0 = 0 := sub_self _

@[simp] theorem gap_one : gap g 1 = 1 / 2 := by
  rw [gap, trailerGames_succ, trailerGames_zero, mix_self]
  norm_num

theorem gap_succ_succ (k : Nat) : gap g (k + 2) = 1 / 2 * mix g (gap g (k + 1)) (gap g k) := by
  rw [gap, gap, gap, Nat.add_sub_cancel, trailerGames_succ g (k + 1)]
  simp only [Nat.add_sub_cancel, show k + 2 - 1 = k + 1 from rfl]
  rw [trailerGames_succ]
  simp only [mix]
  ring

/-- **A trailer's chance is told by the gaps around it.** -/
theorem trailerGames_eq_gap (k : Nat) : trailerGames g (k + 1) = gap g (k + 1) + g * gap g k := by
  have rule := trailerGames_succ g k
  rw [mix] at rule
  rw [gap, gap, Nat.add_sub_cancel]
  linear_combination 2 * rule

variable {g} in
theorem gap_nonneg (lower : 0 ≤ g) (upper : g ≤ 1) (k : Nat) : 0 ≤ gap g k :=
  sub_nonneg.2 (trailer_antitone lower upper (by omega))

end

end Backgammon.MatchTable
