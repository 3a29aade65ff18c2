import Backgammon.Evaluation
import Backgammon.MatchEquity

/-!
# CubeLines — the equities between which a cube decision is made

* `CubeLines` — no double, double and take, double and pass, all for the doubler and at the present
  cube; possibly the line in which the opponent beavers.
* `CubeLines.ofEvaluations` — the lines from two evaluations of the player on roll.
* `CubeLines.response` — a double is answered by whatever is worse for the doubler.
-/

namespace Backgammon

/-- **Equities of the lines of a cube decision.** -/
structure CubeLines (α : Type) where
  noDouble : α
  doubleTake : α
  doublePass : α
  /-- The line in which the opponent beavers, when it has been evaluated. -/
  doubleBeaver : Option α
  /-- Gammon chance of the doubler when the cube is left alone. -/
  winGammon : α
  provenance : Provenance
deriving DecidableEq, Repr

namespace CubeLines

variable {α : Type} [Scalar α]

/-- **The lines from evaluations** of the position as it is and with the cube turned.  Match winning
chances are exchanged for equities at the present cube. -/
def ofEvaluations (met : MatchEquity α) (s : Stakes) (noDouble doubleTake : Equities α)
    (provenance : Provenance) : CubeLines α where
  noDouble := met.valueEquity s noDouble.cubeful
  doubleTake := met.valueEquity s doubleTake.cubeful
  doublePass := if s.isMoney then 1 else met.toEquity s (met.ifWon s)
  doubleBeaver := none
  winGammon := noDouble.winGammon
  provenance := provenance

/-- **The answer to a double**: the worse line for the doubler. -/
def response (c : CubeLines α) : α := Scalar.min c.doubleTake c.doublePass

def isEvaluated (c : CubeLines α) : Bool := c.provenance != .unevaluated

end CubeLines

end Backgammon
