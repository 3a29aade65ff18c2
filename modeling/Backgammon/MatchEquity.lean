import Backgammon.Equities

/-!
# MatchEquity — match winning chances, and their exchange against equities

* `MatchEquity` — the chance to win the match from a score.
* `MatchEquity.atScore`, `MatchEquity.afterGame` — the chance of the player on roll now, and after a
  game has been won by either side.
* `MatchEquity.toEquity`, `MatchEquity.toChance` — the affine exchange that makes winning the present
  cube worth `1` and losing it `-1`; `spreadToEquity`, `spreadToChance` exchange differences.
* `MatchEquity.outcomeValue` — the cubeful value of a finished game.
-/

namespace Backgammon

/-- **Match winning chances**: of a player so many points away against an opponent so many points
away, with a flag for the games after the Crawford game. -/
structure MatchEquity (α : Type) where
  chance : (away opponentAway : Int) → (postCrawford : Bool) → α

namespace MatchEquity

variable {α : Type} (met : MatchEquity α) (s : Stakes)

/-- Winning chance of the player on roll at the present score. -/
def atScore : α :=
  met.chance (s.away s.onRoll) (s.away s.onRoll.opponent) s.postCrawford

/-- **Winning chance of the player on roll** once `winner` has taken `points` in this game. -/
def afterGame (winner : Player) (points : Nat) : α :=
  let left (p : Player) : Int := s.away p - if p = winner then points else 0
  met.chance (left s.onRoll) (left s.onRoll.opponent) (s.postCrawford || s.crawford)

/-- Winning chance after winning the present cube. -/
def ifWon : α := met.afterGame s s.onRoll s.cube

/-- Winning chance after losing the present cube. -/
def ifLost : α := met.afterGame s s.onRoll.opponent s.cube

variable [Scalar α]

/-- **Chance to equity**: `ifWon` to `1` and `ifLost` to `-1`. -/
def toEquity (chance : α) : α :=
  let win := met.ifWon s
  let lose := met.ifLost s
  (2 * chance - (win + lose)) / (win - lose)

/-- **Equity to chance**, the inverse exchange. -/
def toChance (equity : α) : α :=
  let win := met.ifWon s
  let lose := met.ifLost s
  1 / 2 * (equity * (win - lose) + (win + lose))

/-- A difference or standard error of equity as one of winning chance. -/
def spreadToChance (equity : α) : α := 1 / 2 * equity * (met.ifWon s - met.ifLost s)

/-- A difference or standard error of winning chance as one of equity. -/
def spreadToEquity (chance : α) : α := 2 / (met.ifWon s - met.ifLost s) * chance

/-- **Cubeful value of a finished game** for the player on roll: in money play the points per unit of
the cube, in a match the winning chance that results.  The points of a game stay below `2 ^ 32`, so a
natural number stands for a word. -/
def outcomeValue (o : Outcome) : α :=
  let kind := if s.gammonsCount then o.kind else .single
  if s.isMoney then
    match o.winner with
    | .onRoll => (kind.points : α)
    | .opponent => -(kind.points : α)
  else
    let winner := match o.winner with
      | .onRoll => s.onRoll
      | .opponent => s.onRoll.opponent
    met.afterGame s winner (kind.points * s.cube)

/-- A cubeful value as an equity at the present cube. -/
def valueEquity (value : α) : α := if s.isMoney then value else met.toEquity s value

/-- **The equity of a position** at the present cube, with or without the cube. -/
def normalized (v : Equities α) (cubeful : Bool) : α :=
  if cubeful then met.valueEquity s v.cubeful else v.cubeless

/-- An equity at the present cube in points or, in a match, in winning chance. -/
def unnormalize (equity : α) : α :=
  if s.isMoney then (s.cube : α) * equity else met.spreadToChance s equity

end MatchEquity

end Backgammon
