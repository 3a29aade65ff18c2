import Backgammon.Proofs.MatchEquity.Lookup
import Mathlib.Tactic.Ring

/-!
# Proofs/MatchEquity/EvenGames — the table of even games is a fair game

    rows and entries computed in turn ──entry──▸ the table at a score ──▸ the mean of the scores after a game

The table is filled row by row, each entry from those before it, and it is read at the edge by players who
are further away than it is long.  Entry by entry it is a recurrence in the points away of the two players.

* `trailer_succ`, `entry_one`, `entry_of_one`, `entry_succ_succ` — the recurrence after the Crawford game, in
  it, and before it.
* `generated_eq_ok_iff` — the table that is generated has these entries.
* `chanceAt_upTo`, `chanceAt_one`, `chanceAt_of_one` — what it has at a score.
* `Stakes.PlayedFor` — the games of a match, and the points for which one is played.
* `atScore_eq_mean_afterGame` — the chance at a score is the mean of the chances after the game.
-/

namespace Backgammon

namespace MatchTable

/-! ## Entry by entry -/

/-- What a win is worth when a fraction `g` of the wins are gammons. -/
def mix (g single gammon : Rat) : Rat := (1 - g) * single + g * gammon

/-- The chance of the trailer after the Crawford game, so many points away. -/
def trailer (g : Rat) : Nat → Rat
  | 0 => 1
  | b + 1 => term (nextTrailer g) b

section

variable (g : Rat)

@[simp] theorem trailer_zero : trailer g 0 = 1 := rfl

/-- Looking back among the trailers, those with no points to go have won. -/
theorem getD_history_nextTrailer (n i : Nat) :
    (history (nextTrailer g) n)[i]?.getD 1 = trailer g (n - i) := by
  by_cases inside : i < n
  · have count : n - i = (n - 1 - i) + 1 := by omega
    rw [getElem?_history _ inside, Option.getD_some, count, trailer]
  · rw [List.getElem?_eq_none (by simpa using inside), Option.getD_none,
      Nat.sub_eq_zero_of_le (not_lt.1 inside), trailer_zero]

/-- **The trailer plays every game for two points.** -/
theorem trailer_succ (b : Nat) :
    trailer g (b + 1) = 1 / 2 * mix g (trailer g (b - 1)) (trailer g (b - 3)) := by
  rw [← getD_history_nextTrailer, ← getD_history_nextTrailer]
  rfl

variable {g} {len : Nat}

theorem getD_leaders {b : Nat} (inside : b ≤ len) : (leaders g len).getD b 0 = 1 - trailer g b := by
  cases b with
  | zero => exact (sub_self 1).symm
  | succ b =>
    have entry : (leaders g len)[b + 1]? = some (1 - trailer g (b + 1)) := by
      simp only [leaders, List.getElem?_toArray, List.getElem?_cons_succ, List.getElem?_map,
        getElem?_reverse_history _ inside, Option.map_some]
      rfl
    rw [Array.getD_eq_getD_getElem?, entry, Option.getD_some]

variable (g len)

/-- The rule by which the rows of the table follow one another. -/
def rowRule : List (Array Rat) → Array Rat := nextRow g ((leaders g len).getD · 0) len

/-- The rule by which the entries of a row follow one another. -/
def entryRule (row : Nat) : List Rat → Rat :=
  nextEntry g ((leaders g len).getD · 0) (history (rowRule g len) row)

/-- The chance in row `a` and column `b` up to the Crawford game, rows and columns counted by the points
away; a player who is home has won. -/
def entry (a b : Nat) : Rat :=
  match a, b with
  | 0, _ => 1
  | _ + 1, 0 => 0
  | a + 1, b + 1 => term (entryRule g len a) b

variable {g len}

/-- Looking up in a column, a player who would be home has won. -/
theorem getD_map_history_rowRule (a i : Nat) {b : Nat} (inside : b < len) :
    ((history (rowRule g len) a)[i]?.map fun row => row.getD b 0).getD 1 =
      entry g len (a - i) (b + 1) := by
  by_cases above : i < a
  · have count : a - i = (a - 1 - i) + 1 := by omega
    have row : term (rowRule g len) (a - 1 - i) =
      (history (entryRule g len (a - 1 - i)) len).reverse.toArray := rfl
    rw [getElem?_history _ above, Option.map_some, Option.getD_some, count, entry, row,
      Array.getD_eq_getD_getElem?, List.getElem?_toArray, getElem?_reverse_history _ inside,
      Option.getD_some]
  · rw [List.getElem?_eq_none (by simpa using above), Option.map_none, Option.getD_none,
      Nat.sub_eq_zero_of_le (not_lt.1 above), entry]

/-- Looking back in a row, a player against whom the opponent would be home has lost. -/
theorem getD_history_entryRule (a b i : Nat) :
    (history (entryRule g len a) b)[i]?.getD 0 = entry g len (a + 1) (b - i) := by
  by_cases left : i < b
  · have count : b - i = (b - 1 - i) + 1 := by omega
    rw [getElem?_history _ left, Option.getD_some, count, entry]
  · rw [List.getElem?_eq_none (by simpa using left), Option.getD_none,
      Nat.sub_eq_zero_of_le (not_lt.1 left), entry]

variable (g) in
/-- The rows that are computed hold the entries. -/
theorem getD_rows {i j : Nat} (hi : i < len) (hj : j < len) :
    ((history (rowRule g len) len).reverse.toArray.getD i #[]).getD j 0 = entry g len (i + 1) (j + 1) := by
  have row : (history (rowRule g len) len).reverse.toArray.getD i #[] =
      (history (entryRule g len i) len).reverse.toArray := by
    rw [Array.getD_eq_getD_getElem?, List.getElem?_toArray, getElem?_reverse_history _ hi]
    rfl
  rw [row, Array.getD_eq_getD_getElem?, List.getElem?_toArray, getElem?_reverse_history _ hj]
  rfl

/-- An entry is made by the rule from those above and to its left. -/
theorem entry_eq_nextEntry (a b : Nat) :
    entry g len (a + 1) (b + 1) = nextEntry g ((leaders g len).getD · 0)
      (history (rowRule g len) a) (history (entryRule g len a) b) := rfl

/-- **The Crawford game of the leader**, who is one away. -/
theorem entry_one {b : Nat} (inside : b < len) :
    entry g len 1 (b + 1) = 1 / 2 + 1 / 2 * mix g (1 - trailer g b) (1 - trailer g (b - 1)) := by
  rw [entry_eq_nextEntry, nextEntry]
  dsimp only
  rw [if_pos (by simp), length_history]
  cases b with
  | zero =>
    rw [if_pos rfl, mix, Nat.zero_sub, trailer_zero]
    ring
  | succ b =>
    rw [if_neg (by omega), getD_leaders (by omega), getD_leaders (by omega)]
    rfl

/-- **The Crawford game of the trailer**, whose opponent is one away. -/
theorem entry_of_one {a : Nat} (inside : a < len) :
    entry g len (a + 1) 1 = 1 / 2 * mix g (trailer g a) (trailer g (a - 1)) := by
  cases a with
  | zero =>
    rw [entry_one inside, mix, mix, Nat.zero_sub, trailer_zero]
    ring
  | succ a =>
    have gammon : a + 1 + 1 - 2 = a + 1 - 1 := rfl
    rw [entry_eq_nextEntry, nextEntry]
    dsimp only
    rw [if_neg (by simp), if_pos (by simp), length_history, Nat.add_sub_cancel, gammon,
      getD_leaders (by omega), getD_leaders (by omega), mix]
    ring

/-- **Before the Crawford game** both play for one point. -/
theorem entry_succ_succ {a b : Nat} (inside : b + 1 < len) :
    entry g len (a + 2) (b + 2) =
      1 / 2 * mix g (entry g len (a + 1) (b + 2)) (entry g len a (b + 2)) +
        1 / 2 * mix g (entry g len (a + 2) (b + 1)) (entry g len (a + 2) b) := by
  have won (i : Nat) : ((history (rowRule g len) (a + 1))[i]?.map fun row => row.getD (b + 1) 0).getD 1 =
      entry g len (a + 1 - i) (b + 2) := getD_map_history_rowRule (a + 1) i inside
  have lost (i : Nat) : (history (entryRule g len (a + 1)) (b + 1))[i]?.getD 0 =
      entry g len (a + 2) (b + 1 - i) := getD_history_entryRule (a + 1) (b + 1) i
  rw [entry_eq_nextEntry, nextEntry]
  dsimp only
  rw [if_neg (by simp), if_neg (by simp), length_history, Nat.add_sub_cancel]
  simp only [won, lost, Nat.sub_zero, Nat.add_sub_cancel]
  rw [mix, mix]
  ring

end

/-! ## The table -/

/-- **The table of even games**, entry by entry. -/
def evenGames (len : Nat) (pos : 0 < len) (g : Rat) : MatchTable Rat :=
  ofFn len pos (fun i j => entry g len (i + 1) (j + 1)) fun j => 1 - trailer g (j + 1)

theorem ofFn_congr {β : Type} {len : Nat} {h : 0 < len} {pre pre' : Nat → Nat → β} {post post' : Nat → β}
    (same : ∀ i < len, ∀ j < len, pre i j = pre' i j) (last : ∀ j < len, post j = post' j) :
    ofFn len h pre post = ofFn len h pre' post' := by
  rw [ofFn, ofFn]
  congr 1
  · exact congrArg Vector.ofFn (funext fun i =>
      congrArg Vector.ofFn (funext fun j => same i i.2 j j.2))
  · exact congrArg Vector.ofFn (funext fun j => last j j.2)

/-- **The table of even games is generated** for every positive length and every fraction of gammons. -/
theorem generated_eq_ok_iff {len : Nat} {g : Rat} {t : MatchTable Rat} :
    generated len g = .ok t ↔ (0 ≤ g ∧ g ≤ 1) ∧ ∃ pos : 0 < len, t = evenGames len pos g := by
  have leader (j : Nat) (hj : j < len) : (leaders g len).getD (j + 1) 0 = 1 - trailer g (j + 1) :=
    getD_leaders hj
  rw [generated]
  split
  next pos =>
    have table := ofFn_congr (h := pos) (fun i hi j hj => getD_rows g hi hj) leader
    constructor
    · intro accepted
      obtain ⟨range, accepted⟩ := passed_of_bind accepted
      obtain ⟨-, lower, upper⟩ := isNumber_of_checkRange range
      exact ⟨⟨not_lt.1 lower, not_lt.1 upper⟩, pos, (Except.ok.inj accepted).symm.trans table⟩
    · rintro ⟨⟨lower, upper⟩, -, rfl⟩
      have range : checkRange "gammon_rate" g 0 1 = .ok () :=
        checkRange_eq_ok_iff.2 ⟨rfl, not_lt.2 lower, not_lt.2 upper⟩
      rw [range]
      exact congrArg Except.ok table
  next empty =>
    constructor
    · intro accepted
      cases accepted
    · rintro ⟨-, pos, -⟩
      exact absurd pos empty

/-! ## The table at a score -/

section

variable {len : Nat} (pos : 0 < len) (g : Rat) {a b : Nat}

/-- **Up to the Crawford game** the table is read entry by entry, scores beyond it at its edge. -/
theorem chanceAt_upTo (a b : Nat) :
    (evenGames len pos g).chanceAt a b false = entry g len (min a len) (min b len) := by
  let t := evenGames len pos g
  rcases Nat.eq_zero_or_pos a with rfl | toGo
  · rw [chanceAt_zero, Nat.zero_min, entry]
  rcases Nat.eq_zero_or_pos b with rfl | opponentToGo
  · obtain ⟨k, eq⟩ := Nat.exists_eq_add_of_le' (Nat.le_min.2 ⟨toGo, pos⟩)
    rw [chanceAt_zero_right _ toGo, eq, Nat.zero_min, entry]
  · have row : (t.place a).val + 1 = min a len := t.val_place toGo
    have column : (t.place b).val + 1 = min b len := t.val_place opponentToGo
    rw [chanceAt_pre _ toGo opponentToGo, ← row, ← column]
    exact pre_ofFn ..

/-- **After the Crawford game** the leader has what the trailer leaves. -/
theorem chanceAt_one (b : Nat) :
    (evenGames len pos g).chanceAt 1 b true = 1 - trailer g (min b len) := by
  let t := evenGames len pos g
  rcases Nat.eq_zero_or_pos b with rfl | opponentToGo
  · rw [chanceAt_zero_right _ le_rfl, Nat.zero_min, trailer_zero]
    exact (sub_self 1).symm
  · have column : (t.place b).val + 1 = min b len := t.val_place opponentToGo
    rw [chanceAt_leader _ opponentToGo, ← column]
    exact post_ofFn ..

/-- **After the Crawford game** the trailer needs so many points, and at the edge of the table no more
than it is long. -/
theorem chanceAt_of_one (a : Nat) :
    (evenGames len pos g).chanceAt a 1 true = trailer g (min a len) := by
  let t := evenGames len pos g
  rcases Nat.eq_zero_or_pos a with rfl | toGo
  · rw [chanceAt_zero, Nat.zero_min, trailer_zero]
  rcases Nat.eq_or_lt_of_le toGo with rfl | far
  · -- one away against one away is even
    rw [chanceAt_one, Nat.min_eq_left pos, trailer_succ, mix, Nat.zero_sub, trailer_zero]
    ring
  · have row : (t.place a).val + 1 = min a len := t.val_place toGo
    rw [chanceAt_trailer _ far, ← row]
    exact (congrArg (1 - ·) (post_ofFn ..)).trans (sub_sub_cancel ..)

/-! ## Game by game -/

/-- **Before the Crawford game** both play for one point. -/
theorem chanceAt_before (far : 2 ≤ a) (opponentFar : 2 ≤ b) (inside : a ≤ len)
    (opponentInside : b ≤ len) :
    let chance (x y : Nat) : Rat := (evenGames len pos g).chanceAt x y false
    chance a b = 1 / 2 * mix g (chance (a - 1) b) (chance (a - 2) b) +
      1 / 2 * mix g (chance a (b - 1)) (chance a (b - 2)) := by
  obtain ⟨a, rfl⟩ := Nat.exists_eq_add_of_le' far
  obtain ⟨b, rfl⟩ := Nat.exists_eq_add_of_le' opponentFar
  have won : a + 2 - 1 ≤ len := by omega
  have lost : b + 2 - 1 ≤ len := by omega
  simp only [chanceAt_upTo, Nat.min_eq_left inside, Nat.min_eq_left opponentInside,
    Nat.min_eq_left won, Nat.min_eq_left lost, Nat.add_sub_cancel,
    Nat.min_eq_left (Nat.le_of_add_right_le inside), Nat.min_eq_left (Nat.le_of_add_right_le opponentInside)]
  exact entry_succ_succ opponentInside

/-- **The Crawford game seen by the leader**: a win ends the match, and after a loss the trailer is
nearer by the points. -/
theorem chanceAt_crawford_one (toGo : 1 ≤ b) (inside : b ≤ len) :
    (evenGames len pos g).chanceAt 1 b false =
      1 / 2 + 1 / 2 * mix g (1 - trailer g (b - 1)) (1 - trailer g (b - 2)) := by
  obtain ⟨b, rfl⟩ := Nat.exists_eq_add_of_le' toGo
  rw [chanceAt_upTo, Nat.min_eq_left pos, Nat.min_eq_left inside]
  exact entry_one inside

/-- **The Crawford game seen by the trailer**, who has lost the match after a loss. -/
theorem chanceAt_crawford_of_one (toGo : 1 ≤ a) (inside : a ≤ len) :
    (evenGames len pos g).chanceAt a 1 false =
      1 / 2 * mix g (trailer g (a - 1)) (trailer g (a - 2)) := by
  obtain ⟨a, rfl⟩ := Nat.exists_eq_add_of_le' toGo
  rw [chanceAt_upTo, Nat.min_eq_left pos, Nat.min_eq_left inside]
  exact entry_of_one inside

/-- **A game after the Crawford game** counts two points. -/
theorem trailer_eq (toGo : 1 ≤ b) :
    trailer g b = 1 / 2 * mix g (trailer g (b - 2)) (trailer g (b - 4)) := by
  obtain ⟨b, rfl⟩ := Nat.exists_eq_add_of_le' toGo
  exact trailer_succ g b

end

end MatchTable

/-! ## A fair game -/

namespace MatchEquity

variable (met : MatchEquity Rat) (s : Stakes) (points : Nat)

theorem afterGame_onRoll :
    met.afterGame s s.onRoll points = met.chance (s.away s.onRoll - points)
      (s.away s.onRoll.opponent) (s.postCrawford || s.crawford) := by
  simp [afterGame]

theorem afterGame_opponent :
    met.afterGame s s.onRoll.opponent points = met.chance (s.away s.onRoll)
      (s.away s.onRoll.opponent - points) (s.postCrawford || s.crawford) := by
  simp [afterGame, (Player.opponent_ne s.onRoll).symm]

end MatchEquity

namespace Stakes

/-- **The games of a match**, by the flags and the score, and the points for which one is played: the
trailer turns the cube in every game after the Crawford game. -/
inductive PlayedFor (s : Stakes) : Nat → Prop
  | before (crawford : s.crawford = false) (postCrawford : s.postCrawford = false)
      (far : ∀ p, 2 ≤ s.away p) : s.PlayedFor 1
  | crawford (crawford : s.crawford = true) (postCrawford : s.postCrawford = false)
      (leader : ∃ p, s.away p = 1 ∧ s.away p.opponent ≠ 1) : s.PlayedFor 1
  | after (crawford : s.crawford = false) (postCrawford : s.postCrawford = true)
      (leader : ∃ p, s.away p = 1) : s.PlayedFor 2

/-- A player who is so far away is on roll or the opponent. -/
theorem away_onRoll_or_opponent {s : Stakes} {p : Player} {n : Int} (away : s.away p = n) :
    s.away s.onRoll = n ∨ s.away s.onRoll.opponent = n := by
  by_cases onRoll : p = s.onRoll
  · exact .inl (onRoll ▸ away)
  · exact .inr (Player.eq_opponent_of_ne onRoll ▸ away)

end Stakes

namespace MatchTable

/-- **The table of even games is fair**: the chance at a score is the mean of the chances after a single
game or a gammon that is won or lost. -/
theorem atScore_eq_mean_afterGame {len : Nat} (pos : 1 ≤ len) {g : Rat} (lower : 0 ≤ g) (upper : g ≤ 1) :
    ∃ t, generated len g = .ok t ∧
      ∀ (s : Stakes) (points : Nat), (∀ p, 1 ≤ s.away p ∧ s.away p ≤ len) → s.PlayedFor points →
        let after (winner : Player) (points : Nat) : Rat := t.matchEquity.afterGame s winner points
        t.matchEquity.atScore s =
          1 / 2 * ((1 - g) * after s.onRoll points + g * after s.onRoll (2 * points)) +
          1 / 2 * ((1 - g) * after s.onRoll.opponent points +
            g * after s.onRoll.opponent (2 * points)) := by
  refine ⟨_, generated_eq_ok_iff.2 ⟨⟨lower, upper⟩, pos, rfl⟩, fun s points inside played => ?_⟩
  have toGo := inside s.onRoll
  have opponentToGo := inside s.onRoll.opponent
  obtain ⟨a, away⟩ := Int.eq_ofNat_of_zero_le (zero_le_one.trans toGo.1)
  obtain ⟨b, opponentAway⟩ := Int.eq_ofNat_of_zero_le (zero_le_one.trans opponentToGo.1)
  simp only [MatchEquity.afterGame_onRoll, MatchEquity.afterGame_opponent, MatchEquity.atScore, away,
    opponentAway, chance_eq_chanceAt, Int.toNat_natCast, Int.toNat_sub]
  rw [away] at toGo
  rw [opponentAway] at opponentToGo
  cases played with
  | before crawford postCrawford far =>
    have far_onRoll := far s.onRoll
    have far_opponent := far s.onRoll.opponent
    rw [crawford, postCrawford, Bool.or_self]
    exact chanceAt_before pos g (by omega) (by omega) (by omega) (by omega)
  | crawford crawford postCrawford leader =>
    rw [crawford, postCrawford, Bool.or_true]
    obtain ⟨p, one, -⟩ := leader
    rcases Stakes.away_onRoll_or_opponent one with one | one
    · obtain rfl : a = 1 := by omega
      rw [chanceAt_crawford_one pos g (by omega) (by omega)]
      simp (disch := omega) only [chanceAt_one, Nat.min_eq_left, Nat.sub_self, Nat.mul_one,
        Nat.sub_eq_zero_of_le, chanceAt_zero, mix]
      ring
    · obtain rfl : b = 1 := by omega
      rw [chanceAt_crawford_of_one pos g (by omega) (by omega)]
      simp (disch := omega) only [chanceAt_of_one, Nat.min_eq_left, Nat.sub_self, Nat.mul_one,
        Nat.sub_eq_zero_of_le, chanceAt_zero_right, mix]
      ring
  | after crawford postCrawford leader =>
    rw [crawford, postCrawford, Bool.or_false]
    obtain ⟨p, one⟩ := leader
    rcases Stakes.away_onRoll_or_opponent one with one | one
    · obtain rfl : a = 1 := by omega
      simp (disch := omega) only [chanceAt_one, Nat.min_eq_left, Nat.reduceMul,
        Nat.sub_eq_zero_of_le, chanceAt_zero]
      rw [trailer_eq g (by omega), mix]
      ring
    · obtain rfl : b = 1 := by omega
      simp (disch := omega) only [chanceAt_of_one, Nat.min_eq_left, Nat.reduceMul,
        Nat.sub_eq_zero_of_le, chanceAt_zero_right]
      rw [trailer_eq g (by omega), mix]
      ring

/-- A table of ten points with one gammon in five, in the Crawford game of a trailer who is four away. -/
theorem tenPoints_atScore_eq_mean :
    let s := { Stakes.matchPlay 7 ⟨6, 3⟩ .one with crawford := true }
    (∀ p, 1 ≤ s.away p ∧ s.away p ≤ 10) ∧ s.PlayedFor 1 ∧
      ∃ t, generated 10 (1 / 5 : Rat) = .ok t ∧
        t.matchEquity.atScore s =
          1 / 2 * ((1 - 1 / 5) * t.matchEquity.afterGame s .one 1 +
            1 / 5 * t.matchEquity.afterGame s .one 2) +
          1 / 2 * ((1 - 1 / 5) * t.matchEquity.afterGame s .zero 1 +
            1 / 5 * t.matchEquity.afterGame s .zero 2) := by
  intro s
  have inside (p : Player) : 1 ≤ s.away p ∧ s.away p ≤ 10 := by cases p <;> decide
  have played : s.PlayedFor 1 := .crawford rfl rfl ⟨.zero, by decide⟩
  have pos : 1 ≤ 10 := by decide
  have fraction : (0 : Rat) ≤ 1 / 5 ∧ (1 / 5 : Rat) ≤ 1 := by decide +kernel
  obtain ⟨t, generated, fair⟩ := atScore_eq_mean_afterGame pos fraction.1 fraction.2
  exact ⟨inside, played, t, generated, fair s 1 inside played⟩

end MatchTable

end Backgammon
