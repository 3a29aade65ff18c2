import Backgammon.Proofs.MatchEquity.PointsPay
import Mathlib.Tactic.FieldSimp
import Mathlib.Tactic.IntervalCases

/-!
# Proofs/MatchEquity/WinningPays — chances and equities are exchanged where winning pays

    points that pay ──ifWon_eq_chanceAt──▸ ifLost < ifWon ──exchanges_of_pays──▸ Exchanges

* `Stakes.InMatch` — a game of a match that a table covers.
* `MatchEquity.Exchanges` — chances and equities go there and back, and no divisor is zero.
* `exchanges_of_pays` — they do where a game won is better than a game lost.
* `exchanges_of_generated` — in the table of even games they do from the Crawford game on, at an even cube,
  and with gammons no more than half of the wins; and what decides about the other games.
* `gammonsOnly_divides_by_zero` — with gammons only a game at the first cube can be worth nothing.
-/

namespace Backgammon

/-! ## The game of a match -/

/-- **A game of a match** that a table of a length covers: neither player is home, and the flags are
those of the Crawford game or of a game after it only when a player is one away. -/
structure Stakes.InMatch (s : Stakes) (len : Nat) : Prop where
  inside : s.matchTo ≤ len
  score_lt (p : Player) : s.score.get p < s.matchTo
  cube_pos : 1 ≤ s.cube
  leader : s.crawford ∨ s.postCrawford → ∃ p, s.away p = 1
  once : ¬ (s.crawford ∧ s.postCrawford)

/-- A player is some points away, and no further than the table is long. -/
theorem Stakes.InMatch.away {s : Stakes} {len : Nat} (game : s.InMatch len) (p : Player) :
    ∃ a : Nat, s.away p = a ∧ 1 ≤ a ∧ a ≤ len := by
  have inside := game.inside
  have less := game.score_lt p
  exact ⟨s.matchTo - s.score.get p, by rw [Stakes.away]; omega, by omega, by omega⟩

namespace MatchEquity

/-- **Chances and equities are exchanged**: a game won is better than a game lost, there is no division by
zero, more is more, and there and back is no change. -/
structure Exchanges (met : MatchEquity Rat) (s : Stakes) : Prop where
  pays : met.ifLost s < met.ifWon s
  divides : met.ifWon s - met.ifLost s ≠ 0
  strictMono_toEquity : StrictMono (met.toEquity s)
  toChance_toEquity : Function.LeftInverse (met.toChance s) (met.toEquity s)
  toEquity_toChance : Function.RightInverse (met.toChance s) (met.toEquity s)
  strictMono_spreadToEquity : StrictMono (met.spreadToEquity s)
  spreadToChance_spreadToEquity : Function.LeftInverse (met.spreadToChance s) (met.spreadToEquity s)
  spreadToEquity_spreadToChance : Function.RightInverse (met.spreadToChance s) (met.spreadToEquity s)

/-- **Where winning pays, chances and equities are exchanged.** -/
theorem exchanges_of_pays {met : MatchEquity Rat} {s : Stakes} (pays : met.ifLost s < met.ifWon s) :
    met.Exchanges s := by
  have stake : 0 < met.ifWon s - met.ifLost s := sub_pos.2 pays
  have divides := stake.ne'
  have toEquity_eq (x : Rat) : met.toEquity s x =
    (2 * x - (met.ifWon s + met.ifLost s)) / (met.ifWon s - met.ifLost s) := rfl
  have toChance_eq (x : Rat) : met.toChance s x =
    1 / 2 * (x * (met.ifWon s - met.ifLost s) + (met.ifWon s + met.ifLost s)) := rfl
  have spreadToEquity_eq (x : Rat) : met.spreadToEquity s x =
    2 / (met.ifWon s - met.ifLost s) * x := rfl
  have spreadToChance_eq (x : Rat) : met.spreadToChance s x =
    1 / 2 * x * (met.ifWon s - met.ifLost s) := rfl
  constructor
  case pays => exact pays
  case divides => exact divides
  case strictMono_toEquity =>
    intro x y less
    rw [toEquity_eq, toEquity_eq]
    exact div_lt_div_of_pos_right (by linarith) stake
  case strictMono_spreadToEquity =>
    intro x y less
    rw [spreadToEquity_eq, spreadToEquity_eq]
    exact mul_lt_mul_of_pos_left less (div_pos two_pos stake)
  case toChance_toEquity =>
    intro x
    rw [toEquity_eq, toChance_eq, div_mul_cancel₀ _ divides]
    ring
  case toEquity_toChance =>
    intro x
    rw [toEquity_eq, toChance_eq, div_eq_iff divides]
    ring
  case spreadToChance_spreadToEquity =>
    intro x
    rw [spreadToEquity_eq, spreadToChance_eq]
    field_simp
  case spreadToEquity_spreadToChance =>
    intro x
    rw [spreadToEquity_eq, spreadToChance_eq]
    field_simp

end MatchEquity

namespace MatchTable

section

variable {g : Rat} {len : Nat} (pos : 0 < len) {s : Stakes}

/-- No further away than the table is long, the chance is an entry of it. -/
theorem chance_eq_entry {away opponentAway : Int} (inside : away ≤ len)
    (opponentInside : opponentAway ≤ len) :
    (evenGames len pos g).matchEquity.chance away opponentAway false =
      entry g len away.toNat opponentAway.toNat := by
  rw [chance_eq_chanceAt, chanceAt_upTo, Nat.min_eq_left (by omega), Nat.min_eq_left (by omega)]

theorem ifWon_eq_chanceAt (t : MatchTable Rat) {a b : Nat} (away : s.away s.onRoll = a)
    (opponentAway : s.away s.onRoll.opponent = b) :
    t.matchEquity.ifWon s = t.chanceAt (a - s.cube) b (s.postCrawford || s.crawford) := by
  rw [MatchEquity.ifWon, MatchEquity.afterGame_onRoll, chance_eq_chanceAt, away, opponentAway,
    Int.toNat_sub, Int.toNat_natCast]

theorem ifLost_eq_chanceAt (t : MatchTable Rat) {a b : Nat} (away : s.away s.onRoll = a)
    (opponentAway : s.away s.onRoll.opponent = b) :
    t.matchEquity.ifLost s = t.chanceAt a (b - s.cube) (s.postCrawford || s.crawford) := by
  rw [MatchEquity.ifLost, MatchEquity.afterGame_opponent, chance_eq_chanceAt, away, opponentAway,
    Int.toNat_sub, Int.toNat_natCast]

variable (lower : 0 ≤ g) (upper : g ≤ 1)

include lower upper

/-- Before the Crawford game winning pays if the points of the cube do. -/
theorem ifLost_lt_ifWon_of_pays (game : s.InMatch len) (pays : Pays g len s.cube)
    (crawford : s.crawford = false) (postCrawford : s.postCrawford = false) :
    (evenGames len pos g).matchEquity.ifLost s < (evenGames len pos g).matchEquity.ifWon s := by
  obtain ⟨a, away, toGo, inside⟩ := game.away s.onRoll
  obtain ⟨b, opponentAway, opponentToGo, opponentInside⟩ := game.away s.onRoll.opponent
  rw [ifWon_eq_chanceAt _ away opponentAway, ifLost_eq_chanceAt _ away opponentAway, crawford,
    postCrawford, Bool.or_self, chanceAt_upTo, chanceAt_upTo]
  simp (disch := omega) only [Nat.min_eq_left]
  rcases Nat.lt_or_ge s.cube a with far | home
  · have less := pays (a - s.cube) b opponentToGo opponentInside (by omega)
    rwa [Nat.sub_add_cancel far.le] at less
  · rw [Nat.sub_eq_zero_of_le home, entry_home]
    exact entry_lt_one lower upper a (b - s.cube) inside (by omega) toGo

/-- In the Crawford game and after it winning pays: one of the players wins the match with it. -/
theorem ifLost_lt_ifWon_of_leader (game : s.InMatch len) (flag : s.crawford ∨ s.postCrawford) :
    (evenGames len pos g).matchEquity.ifLost s < (evenGames len pos g).matchEquity.ifWon s := by
  obtain ⟨a, away, toGo, inside⟩ := game.away s.onRoll
  obtain ⟨b, opponentAway, opponentToGo, opponentInside⟩ := game.away s.onRoll.opponent
  have cube := game.cube_pos
  have after : (s.postCrawford || s.crawford) = true := by
    rcases flag with flag | flag <;> simp [flag]
  rw [ifWon_eq_chanceAt _ away opponentAway, ifLost_eq_chanceAt _ away opponentAway, after]
  obtain ⟨p, one⟩ := game.leader flag
  rcases Stakes.away_onRoll_or_opponent one with one | one
  · obtain rfl : a = 1 := by omega
    rw [Nat.sub_eq_zero_of_le cube, chanceAt_zero, chanceAt_one]
    exact sub_lt_self 1 (trailer_mem lower upper _).1
  · obtain rfl : b = 1 := by omega
    rw [Nat.sub_eq_zero_of_le cube, chanceAt_zero_right _ toGo, chanceAt_of_one]
    exact (trailer_mem lower upper _).1

/-- **A game of a match exchanges chances and equities** if before the Crawford game the points of its cube
pay. -/
theorem exchanges_evenGames (game : s.InMatch len)
    (pays : s.crawford = false → s.postCrawford = false → Pays g len s.cube) :
    (evenGames len pos g).matchEquity.Exchanges s := by
  by_cases flag : s.crawford ∨ s.postCrawford
  · exact MatchEquity.exchanges_of_pays (ifLost_lt_ifWon_of_leader pos lower upper game flag)
  · obtain ⟨crawford, postCrawford⟩ := not_or.1 flag
    rw [Bool.not_eq_true] at crawford postCrawford
    exact MatchEquity.exchanges_of_pays (ifLost_lt_ifWon_of_pays pos lower upper game
      (pays crawford postCrawford) crawford postCrawford)

omit lower upper

/-- The game in which a loss carries the opponent to the Crawford game, read off the table. -/
theorem crawford_lt_iff {b cube : Nat} (far : cube + 1 ≤ b) (inside : b ≤ len) :
    (evenGames len pos g).matchEquity.chance b 1 false <
        (evenGames len pos g).matchEquity.chance (b - cube) (cube + 1) false ↔
      entry g len b 1 < entry g len (b - cube) (cube + 1) := by
  rw [chance_eq_entry pos (by omega) (by omega), chance_eq_entry pos (by omega) (by omega),
    Int.toNat_sub]
  rfl

/-- That game is one of a match. -/
theorem crawford_lt_of_exchanges {cube : Nat} (cube_pos : 1 ≤ cube)
    (all : ∀ s : Stakes, s.InMatch len → s.cube = cube →
      (evenGames len pos g).matchEquity.Exchanges s) {b : Nat} (far : cube + 1 ≤ b) (inside : b ≤ len) :
    entry g len b 1 < entry g len (b - cube) (cube + 1) := by
  let s : Stakes := { Stakes.matchPlay len ⟨len - b, len - (cube + 1)⟩ .zero with cube }
  have game : s.InMatch len :=
    { inside := le_rfl
      score_lt := fun
        | .zero => Nat.sub_lt pos (by omega)
        | .one => Nat.sub_lt pos cube.succ_pos
      cube_pos
      leader := nofun
      once := nofun }
  have away : s.away s.onRoll = b := by
    change (len - (len - b : Nat) : Int) = b
    omega
  have opponentAway : s.away s.onRoll.opponent = (cube + 1 : Nat) := by
    change (len - (len - (cube + 1) : Nat) : Int) = (cube + 1 : Nat)
    omega
  have pays : (evenGames len pos g).chanceAt b (cube + 1 - cube) false <
      (evenGames len pos g).chanceAt (b - cube) (cube + 1) false := by
    have pays := (all s game rfl).pays
    rwa [ifWon_eq_chanceAt _ away opponentAway, ifLost_eq_chanceAt _ away opponentAway] at pays
  rw [Nat.add_sub_cancel_left, chanceAt_upTo, chanceAt_upTo] at pays
  simpa (disch := omega) only [Nat.min_eq_left] using pays

end

/-- **Winning pays in the table of even games** from the Crawford game on, at an even cube, and with
gammons no more than half of the wins, and there chances and equities are exchanged.  At a cube of any size
they are in every game if and only if winning pays in the games whose loss carries the opponent to the
Crawford game. -/
theorem exchanges_of_generated {len : Nat} {g : Rat} {t : MatchTable Rat}
    (made : generated len g = .ok t) :
    (∀ s : Stakes, s.InMatch len → s.crawford ∨ s.postCrawford ∨ Even s.cube ∨ g ≤ 1 / 2 →
      t.matchEquity.Exchanges s) ∧
    ∀ cube : Nat, 1 ≤ cube →
      ((∀ s : Stakes, s.InMatch len → s.cube = cube → t.matchEquity.Exchanges s) ↔
        ∀ b : Nat, cube + 1 ≤ b → b ≤ len →
          t.matchEquity.chance b 1 false < t.matchEquity.chance (b - cube) (cube + 1) false) := by
  obtain ⟨⟨lower, upper⟩, pos, rfl⟩ := generated_eq_ok_iff.1 made
  refine ⟨fun s game condition => exchanges_evenGames pos lower upper game fun crawford postCrawford => ?_,
    fun cube cube_pos => ⟨fun all b far inside => ?_, fun trailer s game same => ?_⟩⟩
  · have cube := game.cube_pos
    rcases condition with flag | flag | ⟨n, even⟩ | half
    · exact absurd flag (Bool.eq_false_iff.1 crawford)
    · exact absurd flag (Bool.eq_false_iff.1 postCrawford)
    · rw [even, ← Nat.mul_two]
      exact (pays_two lower upper).mul lower upper (by omega)
    · rw [← Nat.mul_one s.cube]
      exact (pays_one lower half).mul lower upper cube
  · exact (crawford_lt_iff pos far inside).2 (crawford_lt_of_exchanges pos cube_pos all far inside)
  · subst same
    have pays : Pays g len s.cube := pays_of_crawford lower upper game.cube_pos fun b far inside =>
      (crawford_lt_iff pos far inside).1 (trailer b far inside)
    exact exchanges_evenGames pos lower upper game fun _ _ => pays

/-- A table of five points with a quarter of the wins gammons, and one of three points with three quarters
of them, at the first cube. -/
theorem fivePoints_exchanges :
    let s := Stakes.matchPlay 5 ⟨1, 3⟩ .zero
    (s.InMatch 5 ∧ ∃ t, generated 5 (1 / 4 : Rat) = .ok t ∧ t.matchEquity.Exchanges s) ∧
    ∃ t, generated 3 (3 / 4 : Rat) = .ok t ∧
      ∀ s : Stakes, s.InMatch 3 → s.cube = 1 → t.matchEquity.Exchanges s := by
  intro s
  have game : s.InMatch 5 :=
    ⟨le_rfl, fun p => by cases p <;> decide, le_rfl, nofun, nofun⟩
  have quarter : generated 5 (1 / 4 : Rat) = .ok (evenGames 5 (by decide) (1 / 4)) :=
    generated_eq_ok_iff.2 ⟨by decide +kernel, by decide, rfl⟩
  have most : generated 3 (3 / 4 : Rat) = .ok (evenGames 3 (by decide) (3 / 4)) :=
    generated_eq_ok_iff.2 ⟨by decide +kernel, by decide, rfl⟩
  refine ⟨⟨game, _, quarter, (exchanges_of_generated quarter).1 s game ?_⟩, _, most,
    ((exchanges_of_generated most).2 1 le_rfl).2 fun b far inside => ?_⟩
  · exact .inr (.inr (.inr (by decide +kernel)))
  · interval_cases b <;> decide +kernel

/-- With gammons only, at two away against two away, a single game won leaves the chances as one that is
lost does, and the exchange divides by zero. -/
theorem gammonsOnly_divides_by_zero :
    let s := Stakes.matchPlay 2 ⟨0, 0⟩ .zero
    s.InMatch 2 ∧ ∃ t, generated 2 (1 : Rat) = .ok t ∧
      ¬ t.matchEquity.ifLost s < t.matchEquity.ifWon s ∧
      t.matchEquity.ifWon s - t.matchEquity.ifLost s = 0 := by
  intro s
  have game : s.InMatch 2 :=
    ⟨le_rfl, fun p => by cases p <;> decide, le_rfl, nofun, nofun⟩
  exact ⟨game, evenGames 2 (by decide) 1, generated_eq_ok_iff.2 ⟨by decide +kernel, by decide, rfl⟩,
    by decide +kernel, by decide +kernel⟩

end MatchTable

end Backgammon
