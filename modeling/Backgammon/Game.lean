import Backgammon.Dice

/-!
# Game — the game as the analysis sees it

A board is always seen by the player on roll, and both playing a move and passing the turn give the
board seen by the opponent.  The rules of movement belong to whoever supplies a `Game`, and have an answer
for every board and roll.

* `Side`, `WinKind`, `Outcome` — how a game ends, relative to the player on roll in the final board.
* `Game` — legal moves, play, and the end of the game.
-/

namespace Backgammon

/-- A side of the board: the player on roll, or the other one. -/
inductive Side where
  | onRoll
  | opponent
deriving DecidableEq, Repr

/-- The other side of the board. -/
def Side.swap : Side → Side
  | .onRoll => .opponent
  | .opponent => .onRoll

/-- How much was won. -/
inductive WinKind where
  | single
  | gammon
  | backgammon
deriving DecidableEq, Repr

/-- Points for a win with the cube at one. -/
def WinKind.points : WinKind → Nat
  | single => 1
  | gammon => 2
  | backgammon => 3

/-- **A finished game**, relative to the player on roll in the final board. -/
structure Outcome where
  winner : Side
  kind : WinKind
deriving DecidableEq, Repr

/-- The same result seen from the other side of the board. -/
def Outcome.swap (o : Outcome) : Outcome := { o with winner := o.winner.swap }

/-- **The rules of a game.**  Boards are seen by the player on roll. -/
structure Game (Board Move : Type) where
  /-- The moves that a roll allows; none when the player on roll cannot move. -/
  legalMoves : Board → Dice → List Move
  /-- The board after a move, the opponent on roll. -/
  play : Board → Move → Board
  /-- The board after a turn without a move, the opponent on roll. -/
  pass : Board → Board
  /-- The result, once the game is over. -/
  outcome? : Board → Option Outcome
  /-- The position is covered by a database of bearoff positions. -/
  inBearoff : Board → Bool := fun _ => false

end Backgammon
