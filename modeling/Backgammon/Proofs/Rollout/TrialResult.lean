import Backgammon.Proofs.MatchEquity.Fairness
import Backgammon.Proofs.Rollout.CubeTurns
import Mathlib.Algebra.Order.Ring.Rat
import Mathlib.Tactic.Ring

/-!
# Proofs/Rollout/TrialResult — a result is what the player sees who began

    last head ──ofOutcome──▸ seen by the player on roll there ──toStart──▸ seen by the player who began

Board, winner, cube and match winning chance are kept from the side of the player on roll, who changes
with every turn; a result is given to the player who was on roll at the start, at the cube of the start.
Read over exact numbers, and with no luck taken off:

* `MatchEquity.worth` — what a game is worth to the player who began: points times the final cube in
  units of the first one, or the chance to win the match after it.
* `Equities.invert_ofOutcome` — a finished game seen by the opponent.
* `MatchEquity.afterGame_swapTurn` — the chances of the two players after a game add up to one.
* `AtHead.cubeful_toStart` — a game that is worth its points to the player on roll at a head is worth
  as much to the player who began.
* `play_result` — the result of a trial that ends with a finished game or with a passed double.
-/

namespace Backgammon

/-! ## Sides and players -/

/-- The player on a side of the board, when `p` is on roll. -/
def Side.player (p : Player) : Side → Player
  | .onRoll => p
  | .opponent => p.opponent

/-- The side of the board on which `q` is, when `p` is on roll. -/
def Player.side (q p : Player) : Side := if q = p then .onRoll else .opponent

theorem Side.side_player (x : Side) (p : Player) : (x.player p).side p = x := by
  cases x <;> cases p <;> rfl

theorem Side.side_player_opponent (x : Side) (p : Player) :
    (x.player p.opponent).side p = x.swap := by
  cases x <;> cases p <;> rfl

/-- What `p` gains when `winner` takes so many points. -/
def Player.gain (p winner : Player) (points : Nat) : Rat := if winner = p then points else -points

theorem Player.neg_gain_opponent (p winner : Player) (points : Nat) :
    -p.opponent.gain winner points = p.gain winner points := by
  rw [gain, gain]
  by_cases own : winner = p
  · rw [if_pos own, if_neg (own ▸ (opponent_ne p).symm), neg_neg]
  · rw [if_neg own, if_pos (eq_opponent_of_ne own)]

/-! ## What a game is worth -/

/-- The points for a win of a kind: one where gammons do not count. -/
def Stakes.pointsFor (s : Stakes) (kind : WinKind) : Nat :=
  if s.gammonsCount then kind.points else 1

namespace MatchEquity

variable (met : MatchEquity Rat)

/-- **The value of a game** to the player on roll, at the present cube, when `winner` takes so many
times the cube. -/
def gameValue (s : Stakes) (winner : Player) (points : Nat) : Rat :=
  if s.isMoney then s.onRoll.gain winner points
  else met.afterGame s winner (points * s.cube)

/-- **What a game that begins at `s` is worth** to the player on roll there, when `winner` takes so many
times the final cube: points in units of the first cube, or the chance to win the match. -/
def worth (s : Stakes) (finalCube : Nat) (winner : Player) (points : Nat) : Rat :=
  if s.isMoney then s.onRoll.gain winner points * finalCube / s.cube
  else met.afterGame s winner (points * finalCube)

theorem outcomeValue_eq_gameValue (s : Stakes) (o : Outcome) :
    met.outcomeValue s o = met.gameValue s (o.winner.player s.onRoll) (s.pointsFor o.kind) := by
  obtain ⟨winner, kind⟩ := o
  rw [outcomeValue, gameValue, Stakes.pointsFor]
  cases s.gammonsCount <;> cases winner <;> simp [Side.player, Player.gain, WinKind.points]

/-- A double that is passed wins the present cube. -/
theorem passed_eq_gameValue (s : Stakes) :
    (if s.isMoney then 1 else met.ifWon s) = met.gameValue s s.onRoll 1 := by
  rw [gameValue, Player.gain, if_pos rfl, ifWon, Nat.one_mul, Nat.cast_one]

variable {met}

/-- **After a game the chances of the two players add up to one**: the loser's points away are those
of before. -/
theorem afterGame_swapTurn (fair : met.Fair) {s : Stakes}
    (underway : ∀ p, s.score.get p < s.matchTo) (winner : Player) (points : Nat) :
    1 - met.afterGame s.swapTurn winner points = met.afterGame s winner points := by
  let toGo (p : Player) : Int := s.away p - if p = winner then points else 0
  let played := s.postCrawford || s.crawford
  have seen : met.afterGame s winner points =
      met.chance (toGo s.onRoll) (toGo s.onRoll.opponent) played := rfl
  have seen_by_opponent : met.afterGame s.swapTurn winner points =
      met.chance (toGo s.onRoll.opponent) (toGo s.onRoll.opponent.opponent) played := rfl
  -- the loser has as far to go as before
  have toGo_pos (p : Player) (lost : p ≠ winner) : 0 < toGo p := by
    have := underway p
    simp only [toGo, if_neg lost, Stakes.away]
    omega
  have undecided : ¬ (toGo s.onRoll.opponent ≤ 0 ∧ toGo s.onRoll ≤ 0) := by
    rintro ⟨theirs, mine⟩
    by_cases won : s.onRoll = winner
    · exact (toGo_pos _ (won ▸ Player.opponent_ne _)).not_ge theirs
    · exact (toGo_pos _ won).not_ge mine
  rw [seen, seen_by_opponent, Player.opponent_opponent, ← fair _ _ played undecided,
    add_sub_cancel_left]

end MatchEquity

namespace Equities

/-- The opponent's chances have the opposite cubeless equity. -/
theorem neg_cubelessOf (win winGammon winBackgammon loseGammon loseBackgammon : Rat) :
    -cubelessOf win winGammon winBackgammon loseGammon loseBackgammon =
      cubelessOf (1 - win) loseGammon loseBackgammon winGammon winBackgammon := by
  change -(2 * win - 1 + winGammon - loseGammon + winBackgammon - loseBackgammon) =
    2 * (1 - win) - 1 + loseGammon - winGammon + loseBackgammon - winBackgammon
  ring

theorem invert_ofChances (win winGammon winBackgammon loseGammon loseBackgammon cubeful : Rat)
    (s : Stakes) :
    ((ofChances win winGammon winBackgammon loseGammon loseBackgammon).withCubeful cubeful).invert s =
      (ofChances (1 - win) loseGammon loseBackgammon winGammon winBackgammon).withCubeful
        (if s.isMoney then -cubeful else 1 - cubeful) := by
  simp only [invert, withCubeful, ofChances, neg_cubelessOf]

/-- **A finished game seen by the opponent** has the other winner. -/
theorem invert_ofOutcome (o : Outcome) (cubeful : Rat) (s : Stakes) :
    (ofOutcome o cubeful).invert s = ofOutcome o.swap (if s.isMoney then -cubeful else 1 - cubeful) := by
  obtain ⟨winner, kind⟩ := o
  cases winner with
  | onRoll =>
    refine (invert_ofChances ..).trans ?_
    rw [show (1 - (1 : Rat)) = 0 from sub_self 1]
    rfl
  | opponent =>
    refine (invert_ofChances ..).trans ?_
    rw [show (1 - (0 : Rat)) = 1 from sub_zero 1]
    rfl

end Equities

namespace Rollout

open Analysis

variable {σ δ Board Move : Type}

/-! ## The way back to the start -/

theorem cubeful_toStart (v : Equities Rat) (s : Stakes) (flipped : Bool) (startCube : Nat) :
    (toStart v s flipped startCube).cubeful =
      let seen := if s.isMoney then v.cubeful * s.cube / startCube else v.cubeful
      if flipped then (if s.isMoney then -seen else 1 - seen) else seen := by
  rw [toStart]
  cases flipped <;> simp only [Equities.invert] <;> cases s.isMoney <;> rfl

/-- A finished game stays one on its way back to the start. -/
theorem toStart_ofOutcome (o : Outcome) (cubeful : Rat) (s : Stakes) (flipped : Bool)
    (startCube : Nat) :
    toStart (.ofOutcome o cubeful) s flipped startCube =
      .ofOutcome (if flipped then o.swap else o)
        (toStart (.ofOutcome o cubeful) s flipped startCube).cubeful := by
  have rescaled : ∃ c, (if s.isMoney then (Equities.ofOutcome o cubeful).withCubeful
        ((Equities.ofOutcome o cubeful).cubeful * (s.cube : Rat) / (startCube : Rat))
      else .ofOutcome o cubeful) = Equities.ofOutcome o c := by
    split <;> exact ⟨_, rfl⟩
  obtain ⟨c, rescaled⟩ := rescaled
  rw [toStart, rescaled]
  cases flipped with
  | false => rfl
  | true =>
    simp only [if_true, Equities.invert_ofOutcome]
    rfl

namespace Arena

variable {a : Arena (StateM σ) δ Rat Board Move} {stakes : Stakes} {dice : δ} {doubles : List Stakes}
  {t : Trial δ Rat Board}

namespace AtHead

variable (h : a.AtHead stakes dice doubles t)
include h

theorem isMoney_eq : t.stakes.isMoney = stakes.isMoney :=
  (congrArg Stakes.isMoney h.rules).trans rfl

/-- The player on roll, by whether the player who began is. -/
theorem onRoll_eq :
    t.stakes.onRoll = if t.flipped then stakes.onRoll.opponent else stakes.onRoll := by
  cases flipped : t.flipped with
  | false =>
    have odd := h.flipped_iff.not.1 (by simp [flipped])
    exact h.onRoll_iff.2 (Nat.not_odd_iff_even.1 odd)
  | true =>
    have even := Nat.not_even_iff_odd.2 (h.flipped_iff.1 flipped)
    exact Player.eq_opponent_of_ne (h.onRoll_iff.not.2 even)

/-- An outcome at a head, with its winner seen from the start. -/
theorem swap_eq (o : Outcome) : (if t.flipped then o.swap else o) =
    ⟨(o.winner.player t.stakes.onRoll).side stakes.onRoll, o.kind⟩ := by
  rw [h.onRoll_eq]
  cases t.flipped with
  | false => exact congrArg (Outcome.mk · o.kind) (o.winner.side_player _).symm
  | true => exact congrArg (Outcome.mk · o.kind) (o.winner.side_player_opponent _).symm

/-- The match after the game, seen from a head: cube and owner do not matter to it. -/
theorem afterGame_eq (met : MatchEquity Rat) (winner : Player) (points : Nat) :
    met.afterGame t.stakes winner points =
      met.afterGame (if t.flipped then stakes.swapTurn else stakes) winner points := by
  have seen := congrArg (fun s => met.afterGame s winner points) h.rules
  rw [h.onRoll_eq] at seen
  refine seen.trans ?_
  cases t.flipped <;> rfl

/-- **What a game is worth at a head** is what it is worth to the player who began. -/
theorem cubeful_toStart {v : Equities Rat} {winner : Player} {points : Nat}
    (underway : stakes.isMoney = true ∨ ∀ p, stakes.score.get p < stakes.matchTo)
    (fair : stakes.isMoney = true ∨ a.met.Fair)
    (value : v.cubeful = a.met.gameValue t.stakes winner points) :
    (toStart v t.stakes t.flipped t.startCube).cubeful =
      a.met.worth stakes t.stakes.cube winner points := by
  rw [Rollout.cubeful_toStart, value, MatchEquity.gameValue, MatchEquity.worth, h.startCube_eq,
    h.isMoney_eq, h.onRoll_eq, h.afterGame_eq]
  cases money : stakes.isMoney with
  | true =>
    cases t.flipped with
    | false => rfl
    | true =>
      simp only [if_true]
      rw [← neg_div, ← neg_mul, Player.neg_gain_opponent]
  | false =>
    cases t.flipped with
    | false => rfl
    | true =>
      have fair := fair.resolve_left (by simp [money])
      have underway := underway.resolve_left (by simp [money])
      exact MatchEquity.afterGame_swapTurn fair underway winner _

end AtHead

/-! ## The result -/

theorem result_eq_toStart (h : a.AtHead stakes dice doubles t)
    (plain : a.settings.varianceReduction = false) (v : Equities Rat) :
    t.result v = toStart v t.stakes t.flipped t.startCube := by
  rw [Trial.result, h.luck_eq plain]
  ext k
  rw [Equities.get_zipWith, Equities.zero, Equities.get_splat]
  exact sub_zero _

/-- A double that is passed is worth the present cube to the doubler. -/
theorem cubeful_of_passed {v : Equities Rat} {w w' : σ} (h : Yields (a.cubeTurn t) w (.passed v) w') :
    v.cubeful = a.met.gameValue t.stakes t.stakes.onRoll 1 := by
  rw [← MatchEquity.passed_eq_gameValue]
  rw [cubeTurn, if_pos (mayDouble_of_cubeTurn h (by simp)), cubeAction] at h
  obtain ⟨noDouble, _, -, h⟩ := Yields.bind_iff.1 h
  obtain ⟨doubled, _, -, h⟩ := Yields.bind_iff.1 h
  dsimp only at h
  generalize (verdict _ _ _ : CubeVerdict Rat).decision = decision at h
  cases decision <;> cases (Yields.pure_iff.1 h).1 <;> rfl

end Arena

/-- **A result is what the player sees who began.**  A trial comes to a result just when its course comes
to an end.  Over exact numbers and with no luck taken off, a game that is over at the last head gives the
result of the finished game with its winner seen from the start, worth its points times the cube of the
last head; a double that is passed there is worth the cube before the double to the doubler. -/
theorem play_result (a : Arena (StateM σ) δ Rat Board Move)
    (plain : a.settings.varianceReduction = false) {stakes : Stakes}
    (underway : stakes.isMoney = true ∨ ∀ p, stakes.score.get p < stakes.matchTo)
    (fair : stakes.isMoney = true ∨ a.met.Fair) (board : Board) (dice : δ) (w : σ) :
    (∀ horizon v w', Yields (a.play horizon board stakes dice) w (some v) w' ↔
      ∃ doubles t w₁ e, t.ply < horizon ∧
        a.Course (.start board stakes dice) w doubles t w₁ ∧ a.EndsBy t w₁ e v w') ∧
    ∀ doubles t w₁ e v w', a.Course (.start board stakes dice) w doubles t w₁ →
      a.EndsBy t w₁ e v w' →
        (∀ o, e = .finished o →
          let winner := o.winner.player t.stakes.onRoll
          v = .ofOutcome ⟨winner.side stakes.onRoll, o.kind⟩
            (a.met.worth stakes t.stakes.cube winner (t.stakes.pointsFor o.kind))) ∧
        (e = .passed → v.cubeful = a.met.worth stakes t.stakes.cube t.stakes.onRoll 1) := by
  refine ⟨fun _ _ _ => Arena.yields_play_iff, fun doubles t w₁ e v w' course ends => ⟨?_, ?_⟩⟩
  · rintro o rfl
    cases ends with
    | finished ended =>
      have value := a.met.outcomeValue_eq_gameValue t.stakes o
      rw [Arena.result_eq_toStart course.atHead plain, toStart_ofOutcome,
        course.atHead.cubeful_toStart underway fair value, course.atHead.swap_eq]
  · rintro rfl
    cases ends with
    | passed running uncut uninterrupted offer =>
      rw [Arena.result_eq_toStart course.atHead plain]
      exact course.atHead.cubeful_toStart underway fair (Arena.cubeful_of_passed offer)

/-- What the player who began wins in a trial of `earlyDouble` with one roll to go: he doubles to two,
and takes the last off. -/
def gammonAtTwo : Equities Rat := .ofOutcome ⟨.onRoll, .gammon⟩ (earlyDouble.met.worth toNine 2 .zero 2)

theorem earlyDouble_result :
    Yields (earlyDouble.play 2 1 toNine 0) () (some gammonAtTwo) () ∧
    ∃ doubles t w e, earlyDouble.Course (.start 1 toNine 0) () doubles t w ∧
      earlyDouble.EndsBy t w e gammonAtTwo () ∧
      (∀ o, e = .finished o →
        let winner := o.winner.player t.stakes.onRoll
        gammonAtTwo = .ofOutcome ⟨winner.side toNine.onRoll, o.kind⟩
          (earlyDouble.met.worth toNine t.stakes.cube winner (t.stakes.pointsFor o.kind))) ∧
      (e = .passed →
        gammonAtTwo.cubeful = earlyDouble.met.worth toNine t.stakes.cube t.stakes.onRoll 1) := by
  have played : Yields (earlyDouble.play 2 1 toNine 0) () (some gammonAtTwo) () := by decide +kernel
  have underway (p : Player) : toNine.score.get p < toNine.matchTo := by cases p <;> decide
  have fair : earlyDouble.met.Fair := by
    intro x y _ _
    simp only [earlyDouble, Int.cast_sub]
    ring
  obtain ⟨yields_iff, result⟩ := play_result earlyDouble rfl (.inr underway) (.inr fair) 1 0 ()
  obtain ⟨doubles, t, w, e, -, course, ends⟩ := (yields_iff 2 gammonAtTwo ()).1 played
  exact ⟨played, doubles, t, w, e, course, ends, result _ _ _ _ _ _ course ends⟩

end Rollout

end Backgammon
