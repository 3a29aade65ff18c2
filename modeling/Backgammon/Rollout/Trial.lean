import Backgammon.Analysis.CubeDecision
import Backgammon.Rollout.Error
import Backgammon.Rollout.Settings

/-!
# Rollout/Trial — one trial: a game played out from a position

A trial alternates turns.  In a turn the player on roll may double and the opponent answers; then the
dice are rolled and the roll is played as well as the settings let the player see.  The trial ends
when the game is over, when a double is passed, or when it is cut short and evaluated.  All results
are given to the player who was on roll at the start, at the cube of the start.

* `Arena` — what trials are played with: game, evaluator, match equities, settings and dice.
* `Arena.chooseMove` — the play of a roll among several.
* `Arena.cubeAction` — what happens to the cube before a roll.
* `Arena.rollLuck` — how much better a roll is than the average one.
* `Arena.turn`, `Arena.play` — one turn, and turns until the trial is over.
-/

namespace Backgammon.Rollout

open Analysis

/-- **What trials are played with.**  `δ` is the state of the dice of one trial; `interrupted` is
asked at the start of every turn, with the number of turns played. -/
structure Arena (m : Type → Type) (δ α Board Move : Type) where
  game : Game Board Move
  evaluator : Evaluator m α Board
  met : MatchEquity α
  settings : Settings α
  roll : δ → ExceptT Fault m (Dice × δ)
  interrupted : (ply : Nat) → m Bool

/-- **A trial under way**, at the start of a turn. -/
structure Trial (δ α Board : Type) where
  board : Board
  stakes : Stakes
  /-- The player on roll is not the one who was on roll at the start. -/
  flipped : Bool
  ply : Nat
  /-- The luck so far, for the player who was on roll at the start. -/
  luck : Equities α
  /-- The cube at the start. -/
  startCube : Nat
  dice : δ

/-- What the player on roll has done with the cube. -/
inductive CubeTurn (α : Type) where
  | unturned
  /-- Doubled and taken. -/
  | taken
  /-- Doubled and passed, with the result for the doubler. -/
  | passed (v : Equities α)
deriving DecidableEq, Repr

/-- How a turn goes on. -/
inductive Turn (δ α Board : Type) where
  /-- The trial is over, with the result for the player who was on roll at the start. -/
  | over (v : Equities α)
  | interrupted
  | next (t : Trial δ α Board)

/-- A move in a list, with its place and what it is worth to the player on roll. -/
structure RankedMove (α Move : Type) where
  index : Nat
  move : Move
  equity : α
deriving DecidableEq, Repr

variable {δ α Board Move : Type} [Scalar α]

/-- **A vector as the player sees it who was on roll at the start.**  A money equity at the present
cube is taken to the cube of the start. -/
def toStart (v : Equities α) (s : Stakes) (flipped : Bool) (startCube : Nat) : Equities α :=
  let v :=
    if s.isMoney then v.withCubeful (v.cubeful * (s.cube : α) / (startCube : α)) else v
  if flipped then v.invert s else v

namespace Trial

/-- A trial at its start. -/
def start (board : Board) (stakes : Stakes) (dice : δ) : Trial δ α Board where
  board := board
  stakes := stakes
  flipped := false
  ply := 0
  luck := .zero
  startCube := stakes.cube
  dice := dice

/-- The result of a trial that ends with a vector seen by the player on roll: the luck is taken
off. -/
def result (t : Trial δ α Board) (v : Equities α) : Equities α :=
  Equities.zipWith (· - ·) (toStart v t.stakes t.flipped t.startCube) t.luck

end Trial

/-! ## Choosing a move -/

/-- Moves from the best to the worst; moves of equal rank keep their order. -/
def ranked (moves : List (RankedMove α Move)) : List (RankedMove α Move) :=
  moves.mergeSort fun a b => Scalar.rankLE b.equity a.equity

/-- **The moves that a filter lets through**, from ranked ones: up to the first that is neither among
the accepted nor among the extra moves close enough to the best. -/
def survivors (f : MoveFilter α) (moves : List (RankedMove α Move)) : List (RankedMove α Move) :=
  match moves with
  | [] => []
  | best :: _ =>
    (moves.zipIdx.takeWhile fun (x, rank) =>
      decide (rank < max f.accept 1) ||
        (decide (rank < f.reach) && decide (best.equity - x.equity ≤ f.threshold))).map
      Prod.fst

/-- The better of the best move so far, with its equity if it has one above the lowest, and another
move. -/
def betterMove (best : RankedMove α Move × Option α) (x : RankedMove α Move) :
    RankedMove α Move × Option α :=
  match best.2 with
  | none => (x, some x.equity)
  | some e => if e < x.equity then (x, some x.equity) else best

namespace Arena

variable {m : Type → Type} [Monad m] (a : Arena m δ α Board Move)

/-- **Asks the evaluator**; chances that make no sense are clamped. -/
def evaluate (board : Board) (s : Stakes) (c : EvalSettings α) :
    ExceptT TrialError m (Equities α) := do
  let fault : Fault → TrialError
    | .failed reason => .evaluator reason
    | .crashed => .crashed
  let v ← ExceptT.adapt fault (a.evaluator board s c)
  return v.repaired

/-- **The equity of the next board** for the player who has just moved. -/
def equityAfter (next : Board) (s : Stakes) (c : EvalSettings α) : ExceptT TrialError m α := do
  let s := s.swapTurn
  match a.game.outcome? next with
  | some o => return -a.met.valueEquity s (a.met.outcomeValue s o)
  | none =>
    let v ← a.evaluate next s c
    return -a.met.normalized s v c.cubeful

/-- A move with its equity under the given settings. -/
def rate (board : Board) (s : Stakes) (c : EvalSettings α) (index : Nat) (move : Move) :
    ExceptT TrialError m (RankedMove α Move) := do
  let equity ← a.equityAfter (a.game.play board move) s c
  return { index, move, equity }

/-- **The best of several moves.**  All moves are looked at without search; a deeper search looks
again at those that the filter of its depth lets through. -/
def chooseMove (board : Board) (s : Stakes) (first : Move) (rest : List Move)
    (c : EvalSettings α) : ExceptT TrialError m (Nat × Move) := do
  if rest.isEmpty then return (0, first)
  let screened ← (first :: rest).zipIdx.mapM fun (move, i) =>
    a.rate board s { c with plies := 0 } i move
  let moves := ranked screened
  match moves with
  | [] => return (0, first)
  | best :: _ =>
    match a.settings.moveFilter? c.plies with
    | none => return (best.index, best.move)
    | some f =>
      let deeper ← (survivors f moves).mapM fun x => a.rate board s c x.index x.move
      let (x, _) := deeper.foldl betterMove (best, Scalar.lowest?)
      return (x.index, x.move)

/-- **The board after a roll** has been played as well as the settings let the player see. -/
def playRoll (board : Board) (s : Stakes) (roll : Dice) (c : EvalSettings α) :
    ExceptT TrialError m Board :=
  match a.game.legalMoves board roll with
  | [] => return a.game.pass board
  | first :: rest => do
    let (_, move) ← a.chooseMove board s first rest c
    return a.game.play board move

/-! ## The cube -/

/-- **Offers the cube** if the player on roll should double, and answers as the opponent should.  The
cube stays where it is when doubling is merely no worse. -/
def cubeAction (board : Board) (s : Stakes) (c : EvalSettings α) :
    ExceptT TrialError m (CubeTurn α) := do
  let c := { c with cubeful := true }
  let noDouble ← a.evaluate board s c
  let doubled ← a.evaluate board s.doubled c
  let doubleTake := if s.isMoney then doubled.withCubeful (2 * doubled.cubeful) else doubled
  let lines := CubeLines.ofEvaluations a.met s noDouble doubleTake .evaluated
  match (verdict ⟨.standard, a.met⟩ lines s).decision with
  | .doubleTake | .doubleBeaver | .redoubleTake => return .taken
  | .doublePass | .redoublePass =>
    return .passed (noDouble.withCubeful (if s.isMoney then 1 else a.met.ifWon s))
  | _ => return .unturned

/-- The cube may be turned in this turn. -/
def mayDouble (s : Stakes) (ply : Nat) : Bool :=
  a.settings.cubeful &&
    (decide (0 < ply) || (a.settings.cubeAtStart && !a.settings.initialPosition)) && s.cubeAvailable

/-! ## Luck -/

/-- The rolls that can come at a ply. -/
def possibleRolls (ply : Nat) : List Dice :=
  if a.settings.initialPosition && ply == 0 then Dice.distinctNonDoubles else Dice.distinct

/-- **What a roll is worth** for the player who was on roll at the start: it is played without search
and the result looked at one ply less deep than plays are. -/
def rollValue (t : Trial δ α Board) (roll : Dice) : ExceptT TrialError m (Equities α) := do
  let c := a.settings.forPlay t.stakes.onRoll t.ply
  let next ← a.playRoll t.board t.stakes roll { c with plies := 0, deterministic := true }
  let s := t.stakes.swapTurn
  let v ← match a.game.outcome? next with
    | some o => pure (Equities.ofOutcome o (a.met.outcomeValue s o))
    | none =>
      a.evaluate next s
        { c with plies := c.plies - 1, deterministic := true, cubeful := a.settings.cubeful }
  return toStart v s (!t.flipped) t.startCube

/-- **How much better a roll is than the average one**; nothing for what is no roll. -/
def rollLuck (t : Trial δ α Board) (roll : Dice) : ExceptT TrialError m (Equities α) := do
  let values ← (a.possibleRolls t.ply).mapM fun d => do return (d, ← a.rollValue t d)
  let total := values.foldl
    (fun sum (d, v) => Equities.zipWith (fun t e => t + e * (d.weight : α)) sum v) Equities.zero
  let weights := Dice.totalWeight (values.map Prod.fst)
  let mean := total.map (· / (weights : α))
  return match values.find? fun (d, _) => d.sameFaces roll with
    | some (_, v) => Equities.zipWith (· - ·) v mean
    | none => .zero

/-! ## Turns -/

/-- The trial is cut short here. -/
def truncates (t : Trial δ α Board) : Bool :=
  a.settings.truncateAt.any (fun limit => decide (limit ≤ t.ply)) ||
    (a.settings.truncateBearoff && a.game.inBearoff t.board)

/-- Rolls the dice and plays the roll; the luck of the roll is noted if it is to be taken off. -/
def rollAndPlay (t : Trial δ α Board) : ExceptT TrialError m (Trial δ α Board) := do
  let fault : Fault → TrialError
    | .failed reason => .dice reason
    | .crashed => .crashed
  let (roll, dice) ← ExceptT.adapt fault (a.roll t.dice)
  let luck ←
    if a.settings.varianceReduction then
      Equities.zipWith (· + ·) t.luck <$> a.rollLuck t roll
    else pure t.luck
  let board ← a.playRoll t.board t.stakes roll (a.settings.forPlay t.stakes.onRoll t.ply)
  return { t with
    board, luck, dice
    stakes := t.stakes.swapTurn
    flipped := !t.flipped
    ply := t.ply + 1 }

/-- **One turn of a trial.** -/
def turn (t : Trial δ α Board) : ExceptT TrialError m (Turn δ α Board) := do
  match a.game.outcome? t.board with
  | some o => return .over (t.result (Equities.ofOutcome o (a.met.outcomeValue t.stakes o)))
  | none =>
    if a.truncates t then
      let v ← a.evaluate t.board t.stakes
        { a.settings.truncation with cubeful := a.settings.cubeful }
      return .over (t.result v)
    else if ← a.interrupted t.ply then return .interrupted
    else if a.mayDouble t.stakes t.ply then
      match ← a.cubeAction t.board t.stakes (a.settings.forCube t.stakes.onRoll t.ply) with
      | .unturned => .next <$> a.rollAndPlay t
      | .taken => .next <$> a.rollAndPlay { t with stakes := t.stakes.doubled }
      | .passed v => return .over (t.result v)
    else .next <$> a.rollAndPlay t

/-- **Turns until the trial is over**, at most the given number of them; nothing when interrupted. -/
def playOn : Nat → Trial δ α Board → ExceptT TrialError m (Option (Equities α))
  | 0, _ => throw .unfinished
  | horizon + 1, t => do
    match ← a.turn t with
    | .over v => return some v
    | .interrupted => return none
    | .next t => playOn horizon t

/-- **Plays a position out** with the given dice. -/
def play (horizon : Nat) (board : Board) (stakes : Stakes) (dice : δ) :
    ExceptT TrialError m (Option (Equities α)) :=
  a.playOn horizon (.start board stakes dice)

end Arena

end Backgammon.Rollout
