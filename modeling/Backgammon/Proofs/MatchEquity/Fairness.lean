import Backgammon.Proofs.MatchEquity.Trailers
import Mathlib.Tactic.LinearCombination

/-!
# Proofs/MatchEquity/Fairness — the chances of two players add up to one

    entries ──score_induction──▸ entry_add_entry, entry_lt_one ──▸ tables of chances, fair to both players

* `MatchEquity.Fair` — the two players' chances add up to one.
* `score_induction` — induction over the scores as the table of even games is filled.
* `entry_add_entry`, `entry_lt_one`, `entry_pos` — its entries add up to one, and no match is decided early.
* `fair_evenGames`, `holdsChances_evenGames`, `leader_le_leader` — the table is fair, holds chances, and the
  leader after the Crawford game does not lose by a trailer further away.
* `chance_of_accepted` — a table that is accepted gives a chance at every score.
-/

namespace Backgammon

namespace MatchEquity

/-- **Fair chances**: those of the two players add up to one as long as the match is not over for
both. -/
def Fair (met : MatchEquity Rat) : Prop :=
  ∀ away opponentAway postCrawford, ¬ (away ≤ 0 ∧ opponentAway ≤ 0) →
    met.chance away opponentAway postCrawford + met.chance opponentAway away postCrawford = 1

end MatchEquity

namespace MatchTable

/-! ## Score by score -/

/-- **Induction on the score**: a player is home, or one away, or the game is before the Crawford game and
leads to the four scores after it. -/
@[elab_as_elim]
theorem score_induction {P : Nat → Nat → Prop} (home : ∀ b, P 0 b) (opponentHome : ∀ a, P (a + 1) 0)
    (leader : ∀ b, P 1 (b + 1)) (trailer : ∀ a, P (a + 2) 1)
    (before : ∀ a b, P (a + 1) (b + 2) → P a (b + 2) → P (a + 2) (b + 1) → P (a + 2) b →
      P (a + 2) (b + 2)) : ∀ a b, P a b
  | 0, b => home b
  | a + 1, 0 => opponentHome a
  | 1, b + 1 => leader b
  | a + 2, 1 => trailer a
  | a + 2, b + 2 =>
    before a b (score_induction home opponentHome leader trailer before (a + 1) (b + 2))
      (score_induction home opponentHome leader trailer before a (b + 2))
      (score_induction home opponentHome leader trailer before (a + 2) (b + 1))
      (score_induction home opponentHome leader trailer before (a + 2) b)
  termination_by a b => a + b

section

variable {g : Rat} {len : Nat}

/-- **The entries of two players add up to one.** -/
theorem entry_add_entry (a b : Nat) (inside : a ≤ len) (opponentInside : b ≤ len) (toGo : 0 < a + b) :
    entry g len a b + entry g len b a = 1 := by
  induction a, b using score_induction with
  | home b =>
    obtain ⟨b, rfl⟩ := Nat.exists_eq_add_of_le' (show 1 ≤ b by omega)
    exact add_zero 1
  | opponentHome a => exact zero_add 1
  | leader b =>
    rw [entry_one opponentInside, entry_of_one opponentInside, mix, mix]
    ring
  | trailer a =>
    rw [entry_one inside, entry_of_one inside, mix, mix]
    ring
  | before a b single gammon lost lostGammon =>
    have single := single (by omega) (by omega) (by omega)
    have gammon := gammon (by omega) (by omega) (by omega)
    have lost := lost (by omega) (by omega) (by omega)
    have lostGammon := lostGammon (by omega) (by omega) (by omega)
    rw [entry_succ_succ opponentInside, entry_succ_succ inside]
    simp only [mix]
    linear_combination (1 - g) / 2 * single + g / 2 * gammon + (1 - g) / 2 * lost + g / 2 * lostGammon

variable (lower : 0 ≤ g) (upper : g ≤ 1)

include lower upper

/-- **A match is not won before it is over.** -/
theorem entry_lt_one (a b : Nat) (inside : a ≤ len) (opponentInside : b ≤ len) (toGo : 0 < a) :
    entry g len a b < 1 := by
  induction a, b using score_induction with
  | home b => exact absurd toGo (lt_irrefl 0)
  | opponentHome a => exact zero_lt_one
  | leader b =>
    have chance (k : Nat) : 1 - trailer g k < 1 := sub_lt_self 1 (trailer_mem lower upper k).1
    have lost := mix_lt_one lower upper (chance b) (chance (b - 1))
    rw [entry_one opponentInside]
    linarith
  | trailer a =>
    have won := mix_le_one lower upper (trailer_mem lower upper (a + 1)).2
      (trailer_mem lower upper (a + 1 - 1)).2
    rw [entry_of_one inside]
    linarith
  | before a b single gammon lost lostGammon =>
    have single := single (by omega) (by omega) (by omega)
    have gammon : entry g len a (b + 2) ≤ 1 := by
      rcases Nat.eq_zero_or_pos a with rfl | far
      · exact le_of_eq (by rw [entry])
      · exact (gammon (by omega) (by omega) far).le
    have won := mix_le_one lower upper single.le gammon
    have lost := mix_lt_one lower upper (lost (by omega) (by omega) (by omega))
      (lostGammon (by omega) (by omega) (by omega))
    rw [entry_succ_succ opponentInside]
    linarith

theorem entry_pos (a b : Nat) (inside : a ≤ len) (opponentInside : b ≤ len) (toGo : 0 < b) :
    0 < entry g len a b := by
  have sum := entry_add_entry (g := g) a b inside opponentInside (by omega)
  have := entry_lt_one lower upper b a opponentInside inside toGo
  linarith

end

/-! ## The table of even games -/

section

variable {len : Nat} (pos : 0 < len) {g : Rat}

/-- At natural scores the chances of two players add up to one. -/
theorem chanceAt_add_chanceAt (a b : Nat) (postCrawford : Bool) (toGo : 0 < a + b) :
    (evenGames len pos g).chanceAt a b postCrawford + (evenGames len pos g).chanceAt b a postCrawford =
      1 := by
  have upTo : (evenGames len pos g).chanceAt a b false + (evenGames len pos g).chanceAt b a false = 1 := by
    rw [chanceAt_upTo, chanceAt_upTo]
    exact entry_add_entry _ _ (Nat.min_le_right ..) (Nat.min_le_right ..) (by omega)
  cases postCrawford with
  | false => exact upTo
  | true =>
    by_cases leader : a = 1
    · rw [leader, chanceAt_one, chanceAt_of_one, sub_add_cancel]
    by_cases trailer : b = 1
    · rw [trailer, chanceAt_one, chanceAt_of_one, add_sub_cancel]
    · rwa [chanceAt_of_far _ leader trailer, chanceAt_of_far _ trailer leader]

/-- **The table of even games is fair to both players.** -/
theorem fair_evenGames : (evenGames len pos g).matchEquity.Fair := by
  intro away opponentAway postCrawford toGo
  rw [chance_eq_chanceAt, chance_eq_chanceAt]
  exact chanceAt_add_chanceAt pos _ _ _ (by omega)

variable (lower : 0 ≤ g) (upper : g ≤ 1)

include lower upper

/-- **The table of even games holds chances.** -/
theorem holdsChances_evenGames : (evenGames len pos g).HoldsChances := by
  intro x mem
  rw [evenGames, rows_ofFn, toList_post_ofFn] at mem
  simp only [List.mem_append, List.mem_flatten, List.mem_map, List.mem_range] at mem
  rcases mem with ⟨_, ⟨i, hi, rfl⟩, mem⟩ | ⟨j, -, rfl⟩
  · obtain ⟨j, hj, rfl⟩ := List.mem_map.1 mem
    have hj : j < len := List.mem_range.1 hj
    exact ⟨(entry_pos lower upper (i + 1) (j + 1) hi hj j.succ_pos).le,
      (entry_lt_one lower upper (i + 1) (j + 1) hi hj i.succ_pos).le⟩
  · obtain ⟨trailer_pos, trailer_le⟩ := trailer_mem lower upper (j + 1)
    exact ⟨sub_nonneg.2 trailer_le, sub_le_self 1 trailer_pos.le⟩

/-- **After the Crawford game the leader does not lose by a trailer who is further away.** -/
theorem leader_le_leader {b b' : Int} (further : b ≤ b') :
    (evenGames len pos g).matchEquity.chance 1 b true ≤
      (evenGames len pos g).matchEquity.chance 1 b' true := by
  have leader (b : Int) :
      (evenGames len pos g).matchEquity.chance 1 b true = 1 - trailer g (min b.toNat len) :=
    (chance_eq_chanceAt ..).trans (chanceAt_one ..)
  rw [leader, leader]
  exact sub_le_sub_left (trailer_antitone lower upper (by omega)) 1

end

/-- **A table has a chance for every score.**  Reading rows that are accepted finds an entry at every score
and gives a chance there.  So does reading the table of even games; there the chances of the two players
add up to one, and those of the leader after the Crawford game do not fall as the trailer has more to go. -/
theorem chance_of_accepted :
    (∀ pre post t, ofRows pre post = .ok t → ∀ away opponentAway postCrawford,
      let chance : Rat := t.matchEquity.chance away opponentAway postCrawford
      read? pre post away opponentAway postCrawford = some chance ∧ 0 ≤ chance ∧ chance ≤ 1) ∧
    ∀ len g, 1 ≤ len → 0 ≤ g → g ≤ 1 → ∃ t, generated len g = .ok t ∧
      (∀ away opponentAway postCrawford,
        let chance : Rat := t.matchEquity.chance away opponentAway postCrawford
        read? t.rows t.post.toList away opponentAway postCrawford = some chance ∧
          0 ≤ chance ∧ chance ≤ 1) ∧
      t.matchEquity.Fair ∧
      ∀ b b', b ≤ b' → t.matchEquity.chance 1 b true ≤ t.matchEquity.chance 1 b' true := by
  refine ⟨fun pre post t accepted away opponentAway postCrawford => ?_,
    fun len g pos lower upper => ?_⟩
  · obtain ⟨rfl, rfl, holds⟩ := rows_of_ofRows accepted
    exact ⟨read?_rows .., holds.chance_mem ..⟩
  · have holds := holdsChances_evenGames pos lower upper
    exact ⟨_, generated_eq_ok_iff.2 ⟨⟨lower, upper⟩, pos, rfl⟩,
      fun _ _ _ => ⟨read?_rows .., holds.chance_mem ..⟩, fair_evenGames pos,
      fun _ _ => leader_le_leader pos lower upper⟩

/-- A table of two points read beyond its edge, after the Crawford game of a longer match; and a table of
even games. -/
theorem twoPoints_chance :
    let pre : List (List Rat) := [[1 / 2, 7 / 10], [3 / 10, 1 / 2]]
    let post : List Rat := [1 / 2, 3 / 5]
    (∃ t, ofRows pre post = .ok t ∧ read? pre post 5 1 true = some (2 / 5) ∧
      t.matchEquity.chance 5 1 true = 2 / 5) ∧
    (1 ≤ 3 ∧ (0 : Rat) ≤ 1 / 4 ∧ (1 / 4 : Rat) ≤ 1) ∧
      ∃ t, generated 3 (1 / 4 : Rat) = .ok t ∧ t.matchEquity.Fair := by
  intro pre post
  have read : read? pre post 5 1 true = some (2 / 5) := by decide +kernel
  have accepted : (ofRows pre post).toBool = true := by decide +kernel
  have fraction : 1 ≤ 3 ∧ (0 : Rat) ≤ 1 / 4 ∧ (1 / 4 : Rat) ≤ 1 := by decide +kernel
  obtain ⟨ofRows_chance, generated_chance⟩ := chance_of_accepted
  refine ⟨?_, fraction, ?_⟩
  · cases table : ofRows pre post with
    | error e =>
      rw [table] at accepted
      exact nomatch accepted
    | ok t =>
      obtain ⟨same, -⟩ := ofRows_chance pre post t table 5 1 true
      exact ⟨t, rfl, read, Option.some.inj (same.symm.trans read)⟩
  · obtain ⟨pos, lower, upper⟩ := fraction
    obtain ⟨t, generated, -, fair, -⟩ := generated_chance 3 (1 / 4) pos lower upper
    exact ⟨t, generated, fair⟩

end MatchTable

end Backgammon
