import Backgammon.Evaluation
import Backgammon.MatchEquity

/-!
# Race — a game of pips alone, and an estimate for it

The smallest game that the analysis can be tried on: each side has a pip count, and a roll brings its
sum, doubles twice that, less what a move leaves unused.

* `Race.Rules.game` — the game; which moves there are, which sums cannot be played and how much is won
  are up to the rules.
* `Race.Estimate.evaluate` — an evaluator that reads chances off the lead; it can be made to depend on
  the settings and on the cube, and to fail close to the end.
-/

namespace Backgammon.Race

/-- **Pips left**, of the player on roll and of the opponent. -/
structure Pips where
  own : Nat
  opponent : Nat
deriving DecidableEq, Repr

/-- **The rules of a race.** -/
structure Rules where
  /-- What each move leaves unused of a roll. -/
  unused : List Int
  /-- Sums that cannot be played. -/
  blocked : List Nat
  gammonPips : Int
  backgammonPips : Int
  /-- The player on roll wins without pips left. -/
  ownZeroWins : Bool
  /-- A bearoff database covers races with both sides at or below this. -/
  bearoff : Option Int
deriving DecidableEq, Repr

namespace Rules

/-- The pips that a roll brings. -/
def pipsOf (d : Dice) : Nat := if d.isDouble then 2 * (d.first + d.second) else d.first + d.second

/-- How much is won against so many pips. -/
def kindOf (r : Rules) (pips : Nat) : WinKind :=
  if r.backgammonPips ≤ pips then .backgammon else if r.gammonPips ≤ pips then .gammon else .single

/-- **The game of a race.**  A move is the number of pips it takes off. -/
def game (r : Rules) : Game Pips Nat where
  legalMoves b d :=
    let sum := pipsOf d
    if b.own = 0 || r.blocked.contains sum then [] else r.unused.map fun k => ((sum : Int) - k).toNat
  play b pips := ⟨b.opponent, b.own - pips⟩
  pass b := ⟨b.opponent, b.own⟩
  outcome? b :=
    if b.opponent = 0 then some ⟨.opponent, r.kindOf b.own⟩
    else if b.own = 0 && r.ownZeroWins then some ⟨.onRoll, r.kindOf b.opponent⟩
    else none
  inBearoff b := r.bearoff.any fun n => decide ((b.own : Int) ≤ n) && decide ((b.opponent : Int) ≤ n)

end Rules

/-- **An estimate of a race** by the lead of the player on roll. -/
structure Estimate (α : Type) where
  /-- How fast the winning chance grows with the lead. -/
  steep : α
  /-- What being on roll is worth in pips. -/
  bonus : α
  winBias : α
  gammon : α
  backgammon : α
  /-- How much the equity depends on the depth of search. -/
  plyShift : α
  cubeScale : α
  /-- What owning the cube is worth. -/
  cubeBonus : α
  /-- Fewest pips of either side with which there is an estimate. -/
  failBelow : α
  /-- Fewest pips of either side with which the estimate does not break down. -/
  crashBelow : α

namespace Estimate

variable {α : Type} [Scalar α] (e : Estimate α)

/-- The chances of a race, with their cubeless equity. -/
def chances (b : Pips) : Equities α :=
  let own : α := b.own
  let opp : α := b.opponent
  let x := e.steep * (opp - own + e.bonus) / (own + opp + 1)
  let r := x / (1 + Scalar.abs x)
  let win := 1 / 2 + 1 / 2 * r + e.winBias
  let wonGammon := if 0 < r then e.gammon * win * r else 0
  let lostGammon := if r < 0 then e.gammon * (1 - win) * (-r) else 0
  .ofChances win wonGammon (e.backgammon * wonGammon) lostGammon (e.backgammon * lostGammon)

/-- The cubeless equity under given settings. -/
def cubeless (b : Pips) (c : EvalSettings α) : α :=
  let wave : α := (((7 * b.own + 3 * b.opponent + 5 * c.plies) % 11 : Nat) : α) - 5
  let x := (e.chances b).cubeless + e.plyShift * (c.plies : α) * wave
  if c.deterministic then x else x + c.noise

/-- The side of the cube: in the middle, with the player on roll, or with the opponent. -/
def cubeSide (s : Stakes) : α :=
  match s.owner with
  | none => 0
  | some p => if p = s.onRoll then 1 else -1

/-- **The estimate as an evaluator.** -/
def evaluate {m : Type → Type} [Monad m] (met : MatchEquity α) : Evaluator m α Pips :=
  fun b s c =>
    let least : α := ((min b.own b.opponent : Nat) : α)
    if least < e.crashBelow then throw .crashed
    else if least < e.failBelow then throw (.failed "evaluator failed")
    else
      let cubeless := e.cubeless b c
      let cubeful :=
        if c.cubeful then cubeless * e.cubeScale + cubeSide s * e.cubeBonus else cubeless
      let value := if s.isMoney then cubeful else met.toChance s cubeful
      return { e.chances b with cubeless, cubeful := value }

end Estimate

end Backgammon.Race
