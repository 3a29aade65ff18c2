import Backgammon.Player

/-!
# Stakes — what a game is played for: cube, match score and the rules in force

* `Stakes` — the cube and its owner, the player on roll, the match length and score, and the special
  rules; `Stakes.money` and `Stakes.matchPlay` are the usual starting points.
* `Stakes.cubeAvailable` — whether the player on roll may double now.
* `Stakes.gammonsCount` — whether gammons and backgammons count in this game.
* `Stakes.doubled` — the cube turned and handed over, up to the largest cube there is.
-/

namespace Backgammon

/-- **The stakes of one decision.** -/
structure Stakes where
  cube : Nat
  /-- The owner of the cube, `none` while it stands in the middle. -/
  owner : Option Player
  onRoll : Player
  /-- Points to which the match is played, zero for money play. -/
  matchTo : Nat
  score : PerPlayer Nat
  /-- This is the Crawford game. -/
  crawford : Bool
  /-- The Crawford game has been played. -/
  postCrawford : Bool
  jacoby : Bool
  beavers : Bool
deriving DecidableEq, Repr

namespace Stakes

/-- Money play with a fresh cube, Jacoby rule and beavers. -/
def money (onRoll : Player) : Stakes where
  cube := 1
  owner := none
  onRoll := onRoll
  matchTo := 0
  score := .splat 0
  crawford := false
  postCrawford := false
  jacoby := true
  beavers := true

/-- A game of a match to `matchTo` points, with a fresh cube. -/
def matchPlay (matchTo : Nat) (score : PerPlayer Nat) (onRoll : Player) : Stakes :=
  { money onRoll with matchTo, score, jacoby := false, beavers := false }

def isMoney (s : Stakes) : Bool := s.matchTo == 0

def isCentered (s : Stakes) : Bool := s.owner.isNone

/-- Points that `p` still needs to win the match. -/
def away (s : Stakes) (p : Player) : Int := s.matchTo - s.score.get p

/-- The cube stands in the middle or with the player on roll. -/
def mayTurn (s : Stakes) : Bool :=
  match s.owner with
  | none => true
  | some p => p == s.onRoll

/-- **Whether the player on roll may double now.**  In a match the cube is dead in the Crawford game,
for a player whom a win at the present cube carries home, and for the leader after the Crawford
game. -/
def cubeAvailable (s : Stakes) : Bool :=
  s.mayTurn && (s.isMoney ||
    (!s.crawford && decide ((s.cube : Int) < s.away s.onRoll) &&
      !(s.postCrawford && s.away s.onRoll == 1)))

/-- **Whether gammons and backgammons count**: in money play under the Jacoby rule only once the
cube has been turned. -/
def gammonsCount (s : Stakes) : Bool := !(s.isMoney && s.jacoby && s.isCentered)

/-- The same stakes with the other player on roll. -/
def swapTurn (s : Stakes) : Stakes := { s with onRoll := s.onRoll.opponent }

/-- The largest cube. -/
def largestCube : Nat := UInt32.size - 1

/-- **The cube turned** by the player on roll and handed to the opponent. -/
def doubled (s : Stakes) : Stakes :=
  { s with cube := min (2 * s.cube) largestCube, owner := some s.onRoll.opponent }

@[simp] theorem swapTurn_swapTurn (s : Stakes) : s.swapTurn.swapTurn = s := by
  simp [swapTurn]

theorem isMoney_swapTurn (s : Stakes) : s.swapTurn.isMoney = s.isMoney := rfl

end Stakes

end Backgammon
