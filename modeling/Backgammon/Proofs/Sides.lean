import Backgammon.Proofs.Coherence
import Backgammon.Proofs.Rollout.TrialResult

/-!
# Proofs/Sides — a position seen from either side

    finished game ──outcomeValue──▸ ofOutcome          seen by the player on roll
          │ swap                        │ invert
    finished game ──outcomeValue──▸ ofOutcome          seen by the opponent

The opponent's view of a vector is taken by `invert`, that of the stakes by `swapTurn` and that of a
finished game by `swap`.  Each undoes itself, and it does not matter whether a finished game is valued
before or after the sides are changed: points change their sign, and the chances to win the match add up
to one, whatever the cube, the score and the rules.

* `Equities.invert_invert`, `Equities.isConsistent_invert`, `Equities.coherent_invert_iff` — changing
  sides twice changes nothing, and whether a vector makes sense does not depend on the side.
* `MatchEquity.outcomeValue_swap` — the value of a finished game to the opponent.
* `Equities.invert_faithful` — the two routes of the diagram agree.
-/

namespace Backgammon

namespace MatchEquity

variable {met : MatchEquity Rat} {s : Stakes}

/-- **The value of a finished game to the opponent**: the points with the other sign, or the rest of the
chances to win the match. -/
theorem outcomeValue_swap
    (rules : s.isMoney = true ∨ met.Fair ∧ ∀ p, s.score.get p < s.matchTo) (o : Outcome) :
    met.outcomeValue s.swapTurn o.swap =
      if s.isMoney then -met.outcomeValue s o else 1 - met.outcomeValue s o := by
  -- the same player wins the same points, whoever is on roll
  have winner : o.swap.winner.player s.onRoll.opponent = o.winner.player s.onRoll := by
    cases side : o.winner <;> simp [Outcome.swap, Side.swap, Side.player, side]
  have points : s.swapTurn.pointsFor o.swap.kind = s.pointsFor o.kind := rfl
  have onRoll : s.swapTurn.onRoll = s.onRoll.opponent := rfl
  rw [outcomeValue_eq_gameValue, outcomeValue_eq_gameValue, onRoll, winner, points, gameValue, gameValue,
    Stakes.isMoney_swapTurn]
  cases money : s.isMoney with
  | true =>
    simp only [if_true]
    rw [onRoll, ← Player.neg_gain_opponent s.onRoll, neg_neg]
  | false =>
    obtain ⟨fair, underway⟩ := rules.resolve_left (by simp [money])
    simp only [Bool.false_eq_true, if_false]
    rw [← afterGame_swapTurn fair underway, sub_sub_cancel]
    rfl

end MatchEquity

namespace Equities

variable (v : Equities Rat) (s : Stakes)

/-- **Changing sides twice changes nothing.** -/
theorem invert_invert : (v.invert s).invert s = v := by
  ext k
  cases k with
  | win => exact sub_sub_cancel 1 v.win
  | winGammon | winBackgammon | loseGammon | loseBackgammon => rfl
  | cubelessEquity => exact neg_neg v.cubeless
  | cubefulEquity =>
    simp only [get, invert]
    cases s.isMoney with
    | true => exact neg_neg v.cubeful
    | false => exact sub_sub_cancel 1 v.cubeful

/-- A property that changing sides keeps does not depend on the side. -/
theorem Stable.invert_iff {P : Equities Rat → Prop} (stable : Stable P) : P (v.invert s) ↔ P v := by
  refine ⟨fun seen => ?_, stable.invert v s⟩
  rw [← invert_invert v s]
  exact stable.invert _ s seen

theorem isConsistent_invert : (v.invert s).isConsistent = v.isConsistent :=
  Bool.eq_iff_iff.2 (stable_isConsistent.invert_iff v s)

theorem coherent_invert_iff : (v.invert s).Coherent ↔ v.Coherent := stable_coherent.invert_iff v s

/-- **Changing sides is faithful.**  It undoes itself, it keeps what makes sense and brings nothing into
order that does not, and the opponent's view of a finished game is the game that the opponent sees, at
any cube and score and whatever was won. -/
theorem invert_faithful :
    (∀ v : Equities Rat, (v.invert s).invert s = v ∧ (v.invert s).isConsistent = v.isConsistent ∧
      ((v.invert s).Coherent ↔ v.Coherent)) ∧
    ∀ (met : MatchEquity Rat) (o : Outcome),
      (s.isMoney = true ∨ met.Fair ∧ ∀ p, s.score.get p < s.matchTo) →
      (ofOutcome o (met.outcomeValue s o)).invert s =
        ofOutcome o.swap (met.outcomeValue s.swapTurn o.swap) := by
  refine ⟨fun v => ⟨invert_invert v s, isConsistent_invert v s, coherent_invert_iff v s⟩, ?_⟩
  intro met o rules
  rw [invert_ofOutcome, MatchEquity.outcomeValue_swap rules]

/-- A gammon at cube two, lost at four away against three away; and one that does not count, under the
Jacoby rule. -/
theorem lost_gammon_faithful :
    let met := (MatchTable.evenGames 7 (by decide) (1 / 4)).matchEquity
    let s : Stakes := { Stakes.matchPlay 7 ⟨3, 4⟩ .zero with cube := 2, owner := some .one }
    let lost : Outcome := ⟨.opponent, .gammon⟩
    (s.isMoney = false ∧ met.Fair ∧ ∀ p, s.score.get p < s.matchTo) ∧
      (ofOutcome lost (met.outcomeValue s lost)).invert s =
        ofOutcome ⟨.onRoll, .gammon⟩ (met.outcomeValue s.swapTurn ⟨.onRoll, .gammon⟩) ∧
      met.outcomeValue s.swapTurn ⟨.onRoll, .gammon⟩ = 1 ∧
      (ofOutcome lost (met.outcomeValue (.money .zero) lost)).invert (.money .zero) =
        ⟨1, 1, 0, 0, 0, 2, 1⟩ := by
  intro met s lost
  have fair : met.Fair := MatchTable.fair_evenGames (by decide)
  have underway (p : Player) : s.score.get p < s.matchTo := by cases p <;> decide
  obtain ⟨-, jacoby⟩ := invert_faithful (.money .zero)
  refine ⟨⟨rfl, fair, underway⟩, (invert_faithful s).2 met lost (.inr ⟨fair, underway⟩), rfl, ?_⟩
  rw [jacoby met lost (.inl rfl)]
  decide +kernel

end Equities

end Backgammon
