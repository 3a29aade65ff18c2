import Backgammon.Proofs.MatchEquity.Fairness
import Mathlib.Algebra.Order.Field.Basic
import Mathlib.Algebra.Order.Field.Rat

/-!
# Proofs/MatchEquity/PointsPay — points won are better than points lost, entry by entry

    the Crawford game ──score by score──▸ every score
    the columns of opponents one, two and three away ──▸ one point, two points ──▸ so many points

A win of `k` points leads to the entry `k` rows up, a loss to the one `k` columns to the left.  That the
first is larger is carried from score to score by the recurrence of the table, from the Crawford game, where
the trailer is compared with one `k` points nearer against an opponent `k + 1` away.

* `Pays` — the points pay at every score.
* `pays_of_crawford` — they do if they do for the trailer in the Crawford game.
* `Pays.mul` — points that pay do so any number of times.
* `pays_two` — two points always pay.
* `pays_one` — one point pays with gammons no more than half of the wins.
-/

namespace Backgammon

namespace MatchTable

section

variable {g : Rat} {len : Nat}

/-! ## Points to go -/

@[simp] theorem entry_home (b : Nat) : entry g len 0 b = 1 := by rw [entry]

theorem entry_opponentHome {a : Nat} (toGo : 1 ≤ a) : entry g len a 0 = 0 := by
  obtain ⟨a, rfl⟩ := Nat.exists_eq_add_of_le' toGo
  rfl

variable (g len) in
/-- **Points pay**: winning `k` points is better than losing them. -/
def Pays (k : Nat) : Prop :=
  ∀ x y, 1 ≤ y → y ≤ len → x + k ≤ len → entry g len (x + k) (y - k) < entry g len x y

variable (lower : 0 ≤ g) (upper : g ≤ 1)

include lower upper

/-- A loss that carries the opponent home is worse than a win. -/
theorem entry_lt_of_home {k x y : Nat} (toGo : 1 ≤ y) (home : y ≤ k) (opponentInside : y ≤ len)
    (inside : x + k ≤ len) : entry g len (x + k) (y - k) < entry g len x y := by
  rw [Nat.sub_eq_zero_of_le home, entry_opponentHome (by omega)]
  exact entry_pos lower upper x y (by omega) opponentInside toGo

/-- The entry with the better four behind it is the better one. -/
theorem entry_succ_succ_lt {a b a' b' : Nat} (inside : b + 1 < len) (inside' : b' + 1 < len)
    (single : entry g len (a + 1) (b + 2) < entry g len (a' + 1) (b' + 2))
    (gammon : entry g len a (b + 2) < entry g len a' (b' + 2))
    (lost : entry g len (a + 2) (b + 1) < entry g len (a' + 2) (b' + 1))
    (lostGammon : entry g len (a + 2) b < entry g len (a' + 2) b') :
    entry g len (a + 2) (b + 2) < entry g len (a' + 2) (b' + 2) := by
  have won := mix_lt_mix lower upper single gammon
  have lost := mix_lt_mix lower upper lost lostGammon
  rw [entry_succ_succ inside, entry_succ_succ inside']
  linarith

/-- **Points pay as soon as they do in the Crawford game**: a trailer there is worse off than one who is
nearer by the points, against an opponent who is further away by them. -/
theorem pays_of_crawford {k : Nat} (points : 1 ≤ k)
    (crawford : ∀ b, k + 1 ≤ b → b ≤ len → entry g len b 1 < entry g len (b - k) (k + 1)) :
    Pays g len k := by
  intro x y toGo opponentInside inside
  induction x, y using score_induction with
  | home b =>
    rw [entry_home, Nat.zero_add]
    exact entry_lt_one lower upper _ _ (by omega) (by omega) points
  | opponentHome a => exact absurd toGo (by omega)
  | leader b =>
    rcases Nat.lt_or_ge k (b + 1) with far | home
    · have nearer := crawford (b + 1) far opponentInside
      have leader : entry g len 1 (b + 1) + entry g len (b + 1) 1 = 1 :=
        entry_add_entry _ _ (by omega) opponentInside (by omega)
      have further : entry g len (k + 1) (b + 1 - k) + entry g len (b + 1 - k) (k + 1) = 1 :=
        entry_add_entry _ _ (by omega) (by omega) (by omega)
      rw [Nat.add_comm 1 k]
      linarith
    · exact entry_lt_of_home lower upper toGo home opponentInside inside
  | trailer a => exact entry_lt_of_home lower upper toGo points opponentInside inside
  | before a b single gammon lost lostGammon =>
    rcases Nat.lt_or_ge k (b + 2) with far | home
    · rcases Nat.lt_or_ge k (b + 1) with further | near
      · -- the loss too is before the Crawford game
        obtain ⟨c, rfl⟩ := Nat.exists_eq_add_of_le' (Nat.lt_succ_iff.1 further)
        have row (i : Nat) : a + i + k = a + k + i := by omega
        have column (i : Nat) : c + k + i - k = c + i := by omega
        have single := single (by omega) (by omega) (by omega)
        have gammon := gammon (by omega) (by omega) (by omega)
        have lost := lost (by omega) (by omega) (by omega)
        have lostGammon := lostGammon (by omega) (by omega) (by omega)
        rw [row, column] at single lost ⊢
        rw [column] at gammon
        rw [row, Nat.add_sub_cancel] at lostGammon
        exact entry_succ_succ_lt lower upper (by omega) opponentInside single gammon lost lostGammon
      · obtain rfl : k = b + 1 := by omega
        have nearer := crawford (a + 2 + (b + 1)) (by omega) inside
        rw [Nat.add_sub_cancel] at nearer
        rwa [show b + 2 - (b + 1) = 1 by omega]
    · exact entry_lt_of_home lower upper toGo home opponentInside inside

/-- Numbers of points that pay do so together. -/
theorem Pays.add {j k : Nat} (first : Pays g len j) (second : Pays g len k) : Pays g len (j + k) := by
  intro x y toGo opponentInside inside
  have once := first x y toGo opponentInside (by omega)
  rw [← Nat.add_assoc, ← Nat.sub_sub]
  rcases Nat.eq_zero_or_pos (y - j) with home | far
  · rw [home, Nat.zero_sub, entry_opponentHome]
    · exact entry_pos lower upper x y (by omega) opponentInside toGo
    · omega
  · exact (second (x + j) (y - j) far (by omega) (by omega)).trans once

theorem Pays.mul {k : Nat} (once : Pays g len k) {n : Nat} (times : 1 ≤ n) : Pays g len (n * k) := by
  induction n, times using Nat.le_induction with
  | base => rwa [Nat.one_mul]
  | succ n _ ih =>
    rw [Nat.succ_mul]
    exact ih.add lower upper once

end

/-! ## The trailer in the Crawford game and after it -/

section

variable {g : Rat} {len : Nat}

/-- In the Crawford game an odd number of points is one game and the games of two points after it. -/
theorem entry_odd_one {k : Nat} (inside : 2 * k + 1 ≤ len) :
    entry g len (2 * k + 1) 1 = 1 / 2 * trailerGames g k := by
  have gammon : trailer g (2 * k - 1) = trailerGames g k := by
    cases k with
    | zero => rfl
    | succ k => exact trailer_odd g k
  rw [entry_of_one inside, gammon]
  exact congrArg (1 / 2 * ·) (mix_self _)

/-- An even number of points is won by that game as by two games after it, by a gammon as by one. -/
theorem entry_even_one {k : Nat} (inside : 2 * k + 2 ≤ len) :
    entry g len (2 * k + 2) 1 = trailerGames g (k + 2) := by
  rw [entry_of_one inside, trailer_odd, trailerGames_succ g (k + 1)]
  rfl

theorem entry_two {a : Nat} (inside : 2 ≤ len) :
    entry g len (a + 2) 2 =
      1 / 2 * mix g (entry g len (a + 1) 2) (entry g len a 2) + 1 / 2 * ((1 - g) * entry g len (a + 2) 1) := by
  rw [entry_succ_succ (b := 0) inside, Nat.zero_add, Nat.zero_add, entry_opponentHome (by omega)]
  rw [mix, mix]
  ring

theorem entry_three {a : Nat} (inside : 3 ≤ len) :
    entry g len (a + 2) 3 =
      1 / 2 * mix g (entry g len (a + 1) 3) (entry g len a 3) +
        1 / 2 * mix g (entry g len (a + 2) 2) (entry g len (a + 2) 1) :=
  entry_succ_succ (b := 1) inside

theorem entry_one_two (inside : 2 ≤ len) : entry g len 1 2 = (3 - g) / 4 := by
  have near : trailer g 1 = 1 / 2 := by
    rw [trailer_eq g le_rfl, trailer_zero, mix_self, mul_one]
  rw [entry_one (b := 1) inside, near, Nat.sub_self, trailer_zero, mix]
  ring

theorem entry_two_two (inside : 2 ≤ len) : entry g len 2 2 = 1 / 2 := by
  have sum := entry_add_entry (g := g) 2 2 inside inside (by omega)
  linarith

theorem entry_three_one (inside : 3 ≤ len) : entry g len 3 1 = 1 / 4 := by
  rw [entry_odd_one (k := 1) inside, trailerGames_succ, trailerGames_zero, mix_self]
  norm_num

theorem entry_three_two (inside : 3 ≤ len) : entry g len 3 2 = (3 - g ^ 2) / 8 := by
  rw [entry_two (a := 1) (by omega), entry_two_two (by omega), entry_one_two (by omega),
    entry_three_one inside, mix]
  ring

/-! ## Two points -/

section

variable (lower : 0 ≤ g) (upper : g ≤ 1)

include lower upper

theorem entry_nonneg (a b : Nat) (inside : a ≤ len) (opponentInside : b ≤ len) : 0 ≤ entry g len a b := by
  rcases Nat.eq_zero_or_pos b with rfl | toGo
  · rcases Nat.eq_zero_or_pos a with rfl | far
    · rw [entry_home]
      exact zero_le_one
    · rw [entry_opponentHome far]
  · exact (entry_pos lower upper a b inside opponentInside toGo).le

/-- Single wins only, and only when the opponent then is one away. -/
theorem entry_two_ge {a : Nat} (inside : a + 2 ≤ len) :
    (1 - g) / 2 * entry g len (a + 2) 1 ≤ entry g len (a + 2) 2 := by
  have single : 0 ≤ entry g len (a + 1) 2 := entry_nonneg lower upper _ _ (by omega) (by omega)
  have gammon : 0 ≤ entry g len a 2 := entry_nonneg lower upper _ _ (by omega) (by omega)
  have won := mix_le_mix lower upper single gammon
  rw [mix_self] at won
  rw [entry_two (by omega)]
  linarith

/-- A trailer in the Crawford game has no more than the third column makes of trailers who are one and two
points nearer, and of the single wins of `entry_two_ge`. -/
theorem crawford_le_mix {b : Nat} (inside : b + 5 ≤ len) :
    entry g len (b + 5) 1 ≤
      1 / 2 * mix g (entry g len (b + 4) 1) (entry g len (b + 3) 1) +
        1 / 2 * mix g ((1 - g) / 2 * entry g len (b + 3) 1) (entry g len (b + 3) 1) := by
  have rest : 0 ≤ g * (1 - g) ^ 2 := mul_nonneg lower (sq_nonneg _)
  obtain ⟨c, rfl | rfl⟩ := Nat.even_or_odd' b
  · have now : entry g len (2 * c + 5) 1 = 1 / 2 * trailerGames g (c + 2) :=
      entry_odd_one (k := c + 2) inside
    have single : entry g len (2 * c + 4) 1 = trailerGames g (c + 3) :=
      entry_even_one (k := c + 1) (by omega)
    have gammon : entry g len (2 * c + 3) 1 = 1 / 2 * trailerGames g (c + 1) :=
      entry_odd_one (k := c + 1) (by omega)
    have near := mul_nonneg (sq_nonneg g) (gap_nonneg lower upper c)
    have far := mul_nonneg rest (gap_nonneg lower upper (c + 1))
    rw [now, single, gammon]
    simp only [mix, trailerGames_eq_gap, gap_succ_succ]
    linarith
  · have now : entry g len (2 * c + 1 + 5) 1 = trailerGames g (c + 4) :=
      entry_even_one (k := c + 2) inside
    have single : entry g len (2 * c + 1 + 4) 1 = 1 / 2 * trailerGames g (c + 2) :=
      entry_odd_one (k := c + 2) (by omega)
    have gammon : entry g len (2 * c + 1 + 3) 1 = trailerGames g (c + 3) :=
      entry_even_one (k := c + 1) (by omega)
    have most : 0 ≤ 1 - 3 * g + 5 * g ^ 2 + g ^ 3 := by
      have := pow_nonneg lower 3
      have := sq_nonneg (g - 3 / 10)
      linarith
    have near := mul_nonneg rest (gap_nonneg lower upper (c + 1))
    have far := mul_nonneg most (gap_nonneg lower upper (c + 2))
    rw [now, single, gammon]
    simp only [mix, trailerGames_eq_gap, gap_succ_succ] at far ⊢
    linarith

/-- **Two points pay**, whatever the fraction of gammons. -/
theorem pays_two : Pays g len 2 := by
  refine pays_of_crawford lower upper (by omega) fun b far inside => ?_
  induction b using Nat.strong_induction_on with
  | _ b ih =>
    match b, far with
    | 3, _ =>
      have leader : entry g len 1 3 + entry g len 3 1 = 1 :=
        entry_add_entry 1 3 (by omega) inside (by omega)
      have trailer : entry g len 3 1 = 1 / 4 := entry_three_one inside
      change entry g len 3 1 < entry g len 1 3
      linarith
    | 4, _ =>
      have leader : entry g len 2 3 + entry g len 3 2 = 1 :=
        entry_add_entry 2 3 (by omega) (by omega) (by omega)
      have trailer : entry g len 3 2 = (3 - g ^ 2) / 8 := entry_three_two (by omega)
      change entry g len 4 1 < entry g len 2 3
      rw [entry_even_one (k := 1) inside]
      simp only [mix, trailerGames_eq_gap, gap_succ_succ, Nat.zero_add, gap_one, gap_zero]
      have := sq_nonneg (1 - g)
      linarith
    | b + 5, _ =>
      have single := ih (b + 4) (by omega) (by omega) (by omega)
      have gammon := ih (b + 3) (by omega) (by omega) (by omega)
      have won := mix_lt_mix lower upper single gammon
      have ahead : (1 - g) / 2 * entry g len (b + 3) 1 ≤ entry g len (b + 3) 2 :=
        entry_two_ge lower upper (by omega)
      have lost := mix_le_mix lower upper ahead (le_refl (entry g len (b + 3) 1))
      calc entry g len (b + 5) 1
        _ ≤ _ := crawford_le_mix lower upper inside
        _ < 1 / 2 * mix g (entry g len (b + 2) 3) (entry g len (b + 1) 3) +
            1 / 2 * mix g (entry g len (b + 3) 2) (entry g len (b + 3) 1) :=
          add_lt_add_of_lt_of_le (mul_lt_mul_of_pos_left won one_half_pos)
            (mul_le_mul_of_nonneg_left lost one_half_pos.le)
        _ = entry g len (b + 3) 3 := (entry_three (a := b + 1) (by omega)).symm

end

/-! ## One point -/

section

variable (lower : 0 ≤ g) (half : g ≤ 1 / 2)

include lower half

omit lower half in
variable (g) in
/-- What a player an odd number of points away has at least against one two away, from what players one and
two points nearer have at least. -/
def oddFloor (j : Nat) : Rat :=
  1 / 2 * mix g (1 / 2 * trailerGames g (j + 2) + gap g j / 40)
    (trailerGames g (j + 3) + gap g (j + 1) / 40) +
  1 / 2 * ((1 - g) * (1 / 2 * trailerGames g (j + 2)))

theorem le_oddFloor (j : Nat) :
    trailerGames g (j + 4) + gap g (j + 2) / 40 ≤ oddFloor g j := by
  have upper : g ≤ 1 := half.trans (by norm_num)
  have tame : 0 ≤ 1 - 2 * g := by linarith
  have near : 0 ≤ 1 / 80 + (1 - g) * g / 8 := by
    have := mul_nonneg (sub_nonneg.2 upper) lower
    linarith
  have far : 0 ≤ (1 + g ^ 2) / 8 - 1 / 80 := by
    have := sq_nonneg g
    linarith
  have near := mul_nonneg (mul_nonneg tame near) (gap_nonneg lower upper j)
  have far := mul_nonneg (mul_nonneg tame far) (gap_nonneg lower upper (j + 1))
  simp only [oddFloor, mix, trailerGames_eq_gap, gap_succ_succ]
  linarith

theorem le_evenFloor (j : Nat) :
    1 / 2 * trailerGames g (j + 3) + gap g (j + 1) / 40 ≤
      1 / 2 * mix g (oddFloor g j) (1 / 2 * trailerGames g (j + 2) + gap g j / 40) +
      1 / 2 * ((1 - g) * trailerGames g (j + 4)) := by
  have upper : g ≤ 1 := half.trans (by norm_num)
  have tame : 0 ≤ 1 - 2 * g := by linarith
  have square := sq_nonneg g
  have near : 0 ≤ 1 + 12 * g + 5 * g ^ 2 := by linarith
  have far : 0 ≤ 6 + 3 * g - 5 * g ^ 2 := by
    have := mul_nonneg lower tame
    linarith
  have near := mul_nonneg (mul_nonneg tame near) (gap_nonneg lower upper j)
  have far := mul_nonneg (mul_nonneg tame far) (gap_nonneg lower upper (j + 1))
  simp only [oddFloor, mix, trailerGames_eq_gap, gap_succ_succ]
  linarith

/-- **With gammons no more than half of the wins** the trailer in the Crawford game is worse off than a
player one point nearer against one two away, by a part of what a game costs; without that part the
induction would not go through. -/
theorem crawford_add_gap_lt (j : Nat) (inside : 2 * j + 4 ≤ len) :
    trailerGames g (j + 3) + gap g (j + 1) / 40 < entry g len (2 * j + 3) 2 ∧
      1 / 2 * trailerGames g (j + 2) + gap g j / 40 < entry g len (2 * j + 4) 2 := by
  have upper : g ≤ 1 := half.trans (by norm_num)
  induction j with
  | zero =>
    have odd : entry g len 3 2 = (3 - g ^ 2) / 8 := entry_three_two (by omega)
    have two : entry g len 2 2 = 1 / 2 := entry_two_two (by omega)
    have four : entry g len 4 1 = trailerGames g 3 := entry_even_one (k := 1) (by omega)
    have even : entry g len 4 2 = _ := entry_two (a := 2) (by omega)
    rw [even, odd, two, four]
    have square := mul_nonneg lower (sub_nonneg.2 half)
    have cube := pow_nonneg lower 3
    simp only [mix, trailerGames_eq_gap, gap_succ_succ, Nat.zero_add, gap_one, gap_zero]
    constructor <;> linarith
  | succ j ih =>
    have earlier := ih (by omega)
    have loss : entry g len (2 * j + 5) 1 = 1 / 2 * trailerGames g (j + 2) :=
      entry_odd_one (k := j + 2) (by omega)
    have loss' : entry g len (2 * j + 6) 1 = trailerGames g (j + 4) :=
      entry_even_one (k := j + 2) (by omega)
    have odd : oddFloor g j < entry g len (2 * j + 5) 2 := by
      have won := mix_lt_mix lower upper earlier.2 earlier.1
      rw [entry_two (a := 2 * j + 3) (by omega), loss, oddFloor]
      linarith
    have even := mix_lt_mix lower upper odd earlier.2
    refine ⟨(le_oddFloor lower half j).trans_lt odd, (le_evenFloor lower half j).trans_lt ?_⟩
    change _ < entry g len (2 * j + 6) 2
    rw [entry_two (a := 2 * j + 4) (by omega), loss']
    linarith

/-- **One point pays** with gammons no more than half of the wins. -/
theorem pays_one : Pays g len 1 := by
  have upper : g ≤ 1 := half.trans (by norm_num)
  refine pays_of_crawford lower upper le_rfl fun b far inside => ?_
  match b, far with
  | 2, _ =>
    change entry g len 2 1 < entry g len 1 2
    rw [entry_even_one (k := 0) inside, entry_one_two inside]
    simp only [trailerGames_eq_gap, gap_succ_succ, mix, Nat.zero_add, gap_one, gap_zero]
    linarith
  | 3, _ =>
    change entry g len 3 1 < entry g len 2 2
    rw [entry_three_one inside, entry_two_two (by omega)]
    norm_num
  | b + 4, _ =>
    obtain ⟨j, rfl | rfl⟩ := Nat.even_or_odd' b
    · have trailer : entry g len (2 * j + 4) 1 = trailerGames g (j + 3) :=
        entry_even_one (k := j + 1) inside
      have slack := gap_nonneg lower upper (j + 1)
      have pays := (crawford_add_gap_lt lower half j inside).1
      change entry g len (2 * j + 4) 1 < entry g len (2 * j + 3) 2
      linarith
    · have trailer : entry g len (2 * j + 5) 1 = 1 / 2 * trailerGames g (j + 2) :=
        entry_odd_one (k := j + 2) inside
      have slack := gap_nonneg lower upper j
      have inside : 2 * j + 4 ≤ len := by omega
      have pays := (crawford_add_gap_lt lower half j inside).2
      change entry g len (2 * j + 5) 1 < entry g len (2 * j + 4) 2
      linarith

end

end

end MatchTable

end Backgammon
