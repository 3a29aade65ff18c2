import Backgammon.Analysis.Options
import Backgammon.Evaluation

/-!
# Analysis/RollLuck — the luck of a roll

* `Position` — what a roll is judged in: the game, the evaluator and the stakes.
* `Position.bestEquity` — the equity after the best play of a roll.
* `Position.rollLuck` — that equity less the average over all rolls the player might have had.
-/

namespace Backgammon.Analysis

/-- Why the luck of a roll cannot be told. -/
inductive LuckError where
  | evaluation (fault : Fault)
  | illegalRoll (dice : Dice)
deriving DecidableEq, Repr

/-- The error in words; a breakdown has none of its own. -/
def LuckError.message : LuckError → String
  | evaluation (.failed reason) => reason
  | evaluation .crashed => "evaluator crashed"
  | illegalRoll d =>
    "Dice(" ++ toString d.first ++ ", " ++ toString d.second ++ ") is not a legal roll here"

/-- **A position in which rolls are judged**, for the player on roll. -/
structure Position (m : Type → Type) (α Board Move : Type) where
  game : Game Board Move
  evaluator : Evaluator m α Board
  met : MatchEquity α
  board : Board
  stakes : Stakes
  settings : EvalSettings α

namespace Position

variable {m : Type → Type} [Monad m] {α Board Move : Type} [Scalar α]
  (q : Position m α Board Move)

/-- **The equity of the next board** for the player who has just moved: the result of a finished
game, else the opponent's evaluation. -/
def equityOf (next : Board) : ExceptT Fault m α :=
  let s := q.stakes.swapTurn
  match q.game.outcome? next with
  | some o => return -q.met.valueEquity s (q.met.outcomeValue s o)
  | none => do
    let v ← q.evaluator next s q.settings
    return -q.met.normalized s v q.settings.cubeful

/-- **The equity after the best play of a roll**; after passing the turn when there is none. -/
def bestEquity (dice : Dice) : ExceptT Fault m α :=
  match q.game.legalMoves q.board dice with
  | [] => q.equityOf (q.game.pass q.board)
  | first :: rest => do
    let best ← q.equityOf (q.game.play q.board first)
    let others ← rest.mapM fun move => q.equityOf (q.game.play q.board move)
    return Scalar.maximum best others

/-- The rolls that a player may have: all, or at the start of a game the ones without doubles. -/
def possibleRolls (firstRoll : Bool) : List Dice :=
  if firstRoll then Dice.distinctNonDoubles else Dice.distinct

/-- **The weighted mean** of values that belong to rolls. -/
def meanOver (values : List (Dice × α)) : α :=
  let total := values.foldl (fun sum (d, x) => sum + x * (d.weight : α)) 0
  let weight := values.foldl (fun sum (d, _) => sum + (d.weight : α)) 0
  total / weight

/-- **The luck of a roll**: how much better it can be played than rolls on average.  At the start of
a game doubles are no rolls. -/
def rollLuck (dice : Dice) (firstRoll : Bool) : ExceptT LuckError m α := do
  let values ← ExceptT.adapt LuckError.evaluation
    ((possibleRolls firstRoll).mapM fun d => do return (d, ← q.bestEquity d))
  match values.find? fun (d, _) => d.sameFaces dice with
  | some (_, equity) => return equity - meanOver values
  | none => throw (.illegalRoll dice)

end Position

end Backgammon.Analysis
