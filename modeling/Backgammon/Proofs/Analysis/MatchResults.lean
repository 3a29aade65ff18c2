import Backgammon.Proofs.Analysis.Results
import Backgammon.Proofs.MatchEquity.Fairness

/-!
# Proofs/Analysis/MatchResults — the results of a match add up to the chance that it brought

    start ──game──▸ · ──game──▸ · ──game──▸ finish        results = chance at the finish - at the start

A game is worth the chance after it less the chance before it, reckoned from the winner's side.  With
chances that are fair to both players it is worth that for either player, so that the results of games
that follow one another telescope.

* `Standing` — where a match stands between two games; `MatchEquity.chanceIn` — the chance to win it
  from there.
* `Context.share_eq_sub` — what a game is worth to either player.
* `Played` — the records of games that follow one another; `Played.sum_actualResult` — their results.
* `match_results_telescope` — a match played to its end has given the winner what was missing to
  certainty, and taken from the loser all there was.
* `even_chances_bring_nothing` — not so with chances by which nobody is home.
-/

namespace Backgammon

/-! ## Where a match stands -/

/-- **Where a match stands** between two games. -/
structure Standing where
  score : PerPlayer Nat
  /-- The Crawford game has been played. -/
  crawfordPlayed : Bool
deriving DecidableEq, Repr

/-- Not both players are home. -/
theorem Standing.opponent_short {m : Standing} {matchTo : Nat} (short : ∃ q, m.score.get q < matchTo)
    {p : Player} (home : matchTo ≤ m.score.get p) : m.score.get p.opponent < matchTo := by
  obtain ⟨q, short⟩ := short
  have other : q ≠ p := by
    rintro rfl
    exact short.not_ge home
  exact Player.eq_opponent_of_ne other ▸ short

namespace Stakes

variable (s : Stakes) (winner : Player) (points : Nat)

/-- Where the match stands before a game. -/
def standing : Standing := ⟨s.score, s.postCrawford⟩

/-- Where the match stands after a game that a player has won. -/
def standingAfter : Standing :=
  ⟨s.score.update winner (· + points), s.postCrawford || s.crawford⟩

variable {s}

/-- The loser of a game is no nearer home than before. -/
theorem exists_short_after (underway : ∀ q, s.score.get q < s.matchTo) :
    ∃ q, (s.standingAfter winner points).score.get q < s.matchTo := by
  refine ⟨winner.opponent, ?_⟩
  rw [standingAfter, PerPlayer.get_update_opponent]
  exact underway _

end Stakes

namespace MatchEquity

/-- **The chance to win a match** from where it stands. -/
def chanceIn {α : Type} (met : MatchEquity α) (matchTo : Nat) (m : Standing) (p : Player) : α :=
  met.chance (matchTo - m.score.get p) (matchTo - m.score.get p.opponent) m.crawfordPlayed

/-- **A player who is home has won**, if the opponent is not. -/
def WonAtHome (met : MatchEquity Rat) : Prop :=
  ∀ away opponentAway postCrawford, away ≤ 0 → 0 < opponentAway →
    met.chance away opponentAway postCrawford = 1

theorem wonAtHome_matchEquity (t : MatchTable Rat) : t.matchEquity.WonAtHome :=
  fun _ _ _ home _ => if_pos home

variable {met : MatchEquity Rat} {matchTo : Nat} {m : Standing}

/-- The chances of the two players add up to one unless both are home. -/
theorem chanceIn_opponent (fair : met.Fair) (short : ∃ q, m.score.get q < matchTo) (p : Player) :
    met.chanceIn matchTo m p.opponent = 1 - met.chanceIn matchTo m p := by
  refine eq_sub_of_add_eq' ?_
  rw [chanceIn, chanceIn, Player.opponent_opponent]
  refine fair _ _ _ ?_
  rintro ⟨home, opponentHome⟩
  have := Standing.opponent_short short (p := p) (by omega)
  omega

/-- A match that is over is won by the player who is home. -/
theorem chanceIn_home (won : met.WonAtHome) (short : ∃ q, m.score.get q < matchTo) {p : Player}
    (home : matchTo ≤ m.score.get p) : met.chanceIn matchTo m p = 1 := by
  have opponent_short := Standing.opponent_short short home
  exact won _ _ _ (by omega) (by omega)

variable (met) (s : Stakes)

theorem atScore_eq_chanceIn : met.atScore s = met.chanceIn s.matchTo s.standing s.onRoll := rfl

/-- The points taken in a game bring its winner nearer home. -/
theorem afterGame_eq_chanceIn (winner : Player) (points : Nat) :
    met.afterGame s winner points =
      met.chanceIn s.matchTo (s.standingAfter winner points) s.onRoll := by
  have left (p : Player) : s.away p - (if p = winner then points else 0 : Nat) =
      s.matchTo - ((s.standingAfter winner points).score.get p : Int) := by
    rcases Decidable.eq_or_ne p winner with rfl | lost
    · rw [if_pos rfl, Stakes.standingAfter, PerPlayer.get_update_self, Stakes.away, Nat.cast_add, sub_sub]
    · obtain rfl := Player.eq_opponent_of_ne lost
      rw [if_neg lost, Stakes.standingAfter, PerPlayer.get_update_opponent, Stakes.away,
        Nat.cast_zero, sub_zero]
  exact congrArg₂ (met.chance · · (s.postCrawford || s.crawford)) (left _) (left _)

end MatchEquity

/-! ## Games that follow one another -/

namespace Analysis

variable {ctx : Context Rat} {s : Stakes}

/-- **A game is worth the chance it brings**, to its winner and to its loser. -/
theorem Context.share_eq_sub (fair : ctx.met.Fair) (underway : ∀ q, s.score.get q < s.matchTo)
    (winner : Player) (points : Nat) (p : Player) :
    ctx.share s winner points p =
      ctx.met.chanceIn s.matchTo (s.standingAfter winner points) p -
        ctx.met.chanceIn s.matchTo s.standing p := by
  have in_match : s.isMoney = false := by
    have := underway winner
    rw [Stakes.isMoney, beq_eq_false_iff_ne]
    omega
  have gain : ctx.gain s winner points =
      ctx.met.chanceIn s.matchTo (s.standingAfter winner points) winner -
        ctx.met.chanceIn s.matchTo s.standing winner := by
    rw [Context.gain, in_match, if_neg Bool.false_ne_true]
    exact congrArg₂ (· - ·)
      (MatchEquity.afterGame_eq_chanceIn _ { s with onRoll := winner } winner points)
      (MatchEquity.atScore_eq_chanceIn _ { s with onRoll := winner })
  rw [share, gain]
  rcases Decidable.eq_or_ne p winner with rfl | lost
  · exact if_pos rfl
  · obtain rfl := Player.eq_opponent_of_ne lost
    have after := MatchEquity.chanceIn_opponent fair (Stakes.exists_short_after winner points underway) winner
    have before := MatchEquity.chanceIn_opponent fair (m := s.standing) ⟨winner, underway _⟩ winner
    rw [if_neg lost, after, before, sub_sub_sub_cancel_left, neg_sub]

/-- **The records of games that follow one another** in a match to so many points, from where it stands
before the first to where it stands after the last.  Both players are short of the match in every game,
and the next one is played at the score that it leaves, after the Crawford game once it has been that.
Other records may come in between. -/
inductive Played {α : Type} (matchTo : Nat) : Standing → List (Record α) → Standing → Prop
  | nothing (m : Standing) : Played matchTo m [] m
  | game {s : Stakes} {winner : Player} {points : Nat} {later : List (Record α)} {finish : Standing}
      (length : s.matchTo = matchTo) (underway : ∀ q, s.score.get q < matchTo)
      (rest : Played matchTo (s.standingAfter winner points) later finish) :
      Played matchTo s.standing (.result s winner points :: later) finish
  | other {r : Record α} {start finish : Standing} {later : List (Record α)}
      (no_result : r.isResult = false) (rest : Played matchTo start later finish) :
      Played matchTo start (r :: later) finish

namespace Played

variable {matchTo : Nat} {start finish : Standing} {records : List (Record Rat)}

/-- No game carries both players home. -/
theorem exists_short (played : Played matchTo start records finish)
    (short : ∃ q, start.score.get q < matchTo) : ∃ q, finish.score.get q < matchTo := by
  induction played with
  | nothing m => exact short
  | other _ _ ih => exact ih short
  | @game s winner points _ _ length underway _ ih =>
    subst length
    exact ih (Stakes.exists_short_after winner points underway)

/-- **The results of games that follow one another telescope.** -/
theorem sum_actualResult (played : Played matchTo start records finish) (fair : ctx.met.Fair)
    (t : Statistics Rat) (p : Player) :
    ((t.addAll ctx records).actualResult.get p).sum = (t.actualResult.get p).sum +
      (ctx.met.chanceIn matchTo finish p - ctx.met.chanceIn matchTo start p) := by
  induction played generalizing t with
  | nothing m => rw [sub_self, add_zero, Statistics.addAll, List.foldl_nil]
  | @other r start finish later no_result _ ih =>
    rw [Statistics.addAll, List.foldl_cons, ← (Statistics.results_add ctx t no_result).1]
    exact ih (t.add ctx r)
  | @game s winner points later finish length underway _ ih =>
    subst length
    let chance (m : Standing) : Rat := ctx.met.chanceIn s.matchTo m p
    have won : ((t.addResult ctx s winner points).actualResult.get p).sum =
        (t.actualResult.get p).sum + ctx.share s winner points p := by
      rw [Statistics.addResult, PerPlayer.get_ofFn]
      rfl
    rw [ctx.share_eq_sub fair underway] at won
    calc ((t.addAll ctx (.result s winner points :: later)).actualResult.get p).sum
      _ = ((t.addResult ctx s winner points).actualResult.get p).sum +
          (chance finish - chance (s.standingAfter winner points)) := ih (t.addResult ctx s winner points)
      _ = (t.actualResult.get p).sum + (chance (s.standingAfter winner points) - chance s.standing) +
          (chance finish - chance (s.standingAfter winner points)) := by rw [won]
      _ = (t.actualResult.get p).sum + (chance finish - chance s.standing) := by ring

end Played

/-- **The results of a match telescope**: they add up to the chance after the last game less the chance
before the first.  In a match played to its end, with chances by which a player who is home has won, as
they have in every table, that is what the winner was short of certainty and what the loser had. -/
theorem match_results_telescope {matchTo : Nat} {start finish : Standing} {records : List (Record Rat)}
    (played : Played matchTo start records finish) (fair : ctx.met.Fair) :
    let t := Statistics.empty.addAll ctx records
    (∀ p, (t.actualResult.get p).sum =
      ctx.met.chanceIn matchTo finish p - ctx.met.chanceIn matchTo start p) ∧
    ((∀ q, start.score.get q < matchTo) → ctx.met.WonAtHome →
      ∀ winner, matchTo ≤ finish.score.get winner →
        (t.actualResult.get winner).sum = 1 - ctx.met.chanceIn matchTo start winner ∧
        (t.actualResult.get winner.opponent).sum =
          -ctx.met.chanceIn matchTo start winner.opponent) ∧
    ∀ table : MatchTable Rat, table.matchEquity.WonAtHome := by
  intro t
  have sum (p : Player) : (t.actualResult.get p).sum =
      ctx.met.chanceIn matchTo finish p - ctx.met.chanceIn matchTo start p := by
    have nothing : ((Statistics.empty : Statistics Rat).actualResult.get p).sum = 0 := by
      cases p <;> rfl
    rw [played.sum_actualResult fair .empty p, nothing, zero_add]
  refine ⟨sum, fun underway won winner home => ?_, MatchEquity.wonAtHome_matchEquity⟩
  have short : ∃ q, finish.score.get q < matchTo := played.exists_short ⟨winner, underway winner⟩
  have certain := MatchEquity.chanceIn_home won short home
  have lost := MatchEquity.chanceIn_opponent fair short winner
  rw [certain, sub_self] at lost
  rw [sum, sum, certain, lost, zero_sub]
  exact ⟨rfl, rfl⟩

/-- A match to three points: two points, luck, the Crawford game, and a game after it that is doubled. -/
theorem match_of_three_points :
    let table : MatchTable Rat := .evenGames 3 (by decide) (1 / 4)
    let ctx : Context Rat := ⟨.standard, table.matchEquity⟩
    let first := Stakes.matchPlay 3 ⟨0, 0⟩ .zero
    let crawford := { first with score := ⟨2, 0⟩, crawford := true, onRoll := .one }
    let last := { first with score := ⟨2, 1⟩, postCrawford := true, cube := 2, owner := some .zero }
    let records : List (Record Rat) := [.result first .zero 2, .luck crawford .one (1 / 2),
      .result crawford .one 1, .result last .one 2]
    let t := Statistics.empty.addAll ctx records
    Played 3 ⟨⟨0, 0⟩, false⟩ records ⟨⟨2, 3⟩, true⟩ ∧ ctx.met.Fair ∧ ctx.met.WonAtHome ∧
      t.actualResult.one.sum = 1 / 2 ∧ t.actualResult.zero.sum = -1 / 2 := by
  intro table ctx first crawford last records t
  have underway (score : PerPlayer Nat) (short : score.zero < 3 ∧ score.one < 3) (q : Player) :
      score.get q < 3 := by
    cases q with
    | zero => exact short.1
    | one => exact short.2
  have played : Played 3 ⟨⟨0, 0⟩, false⟩ records ⟨⟨2, 3⟩, true⟩ :=
    .game (s := first) rfl (underway _ (by decide)) <| .other rfl <|
      .game (s := crawford) rfl (underway _ (by decide)) <|
        .game (s := last) rfl (underway _ (by decide)) (.nothing _)
  have fair : ctx.met.Fair := MatchTable.fair_evenGames (by decide)
  have even (p : Player) : ctx.met.chanceIn 3 ⟨⟨0, 0⟩, false⟩ p = 1 / 2 := by
    cases p <;> decide +kernel
  obtain ⟨-, ended, won⟩ := match_results_telescope played fair
  obtain ⟨winner, loser⟩ := ended (underway _ (by decide)) (won table) .one (Nat.le_refl 3)
  rw [even] at winner loser
  exact ⟨played, fair, won table, winner.trans (by norm_num), loser.trans (by norm_num)⟩

/-- **Chances of one half, at home as well**: they are fair, but a match to one point brings its winner
nothing and costs its loser nothing. -/
theorem even_chances_bring_nothing :
    let ctx : Context Rat := ⟨.standard, ⟨fun _ _ _ => 1 / 2⟩⟩
    let start : Standing := ⟨⟨0, 0⟩, false⟩
    let records : List (Record Rat) := [.result (.matchPlay 1 ⟨0, 0⟩ .zero) .zero 1]
    let t := Statistics.empty.addAll ctx records
    ctx.met.Fair ∧ Played 1 start records ⟨⟨1, 0⟩, false⟩ ∧
      (t.actualResult.zero.sum = 0 ∧ 1 - ctx.met.chanceIn 1 start .zero = 1 / 2) ∧
      t.actualResult.one.sum = 0 ∧ -ctx.met.chanceIn 1 start .one = -1 / 2 := by
  intro ctx start records t
  have fair : ctx.met.Fair := fun _ _ _ _ => by norm_num
  have underway (q : Player) : (⟨0, 0⟩ : PerPlayer Nat).get q < 1 := by
    cases q <;> decide
  have played : Played 1 start records ⟨⟨1, 0⟩, false⟩ :=
    .game (s := .matchPlay 1 ⟨0, 0⟩ .zero) rfl underway (.nothing _)
  refine ⟨fair, played, ⟨?_, ?_⟩, ?_, ?_⟩ <;> decide +kernel

end Analysis

end Backgammon
