import Backgammon.CubeLines
import Backgammon.Analysis.Options

/-!
# Analysis/CubeDecision — what to do with the cube, and what it costs to do otherwise

* `CubeDecision` — the twenty-one verdicts on a cube decision, each with its recommendation, whether
  it asks for a double, and the proper answer to one.
* `Context.classify` — the verdict on given lines, with the equity of the best one.
* `Context.mistake` — the error made by an action, if it costs more than the epsilon.
* `CubeLines.percent` — where the equity without a double sits between take and pass.
-/

namespace Backgammon.Analysis

/-- What a player can do with the cube. -/
inductive CubeAction where
  | noDouble
  | double
  | take
  | pass
deriving DecidableEq, Repr

/-- **The verdict on a cube decision.** -/
inductive CubeDecision where
  | doubleTake
  | doublePass
  | noDoubleTake
  | tooGoodTake
  | tooGoodPass
  | doubleBeaver
  | noDoubleBeaver
  | redoubleTake
  | redoublePass
  | noRedoubleTake
  | tooGoodRedoubleTake
  | tooGoodRedoublePass
  | noRedoubleBeaver
  | noDoubleDeadCube
  | noRedoubleDeadCube
  | optionalDoubleBeaver
  | optionalDoubleTake
  | optionalRedoubleTake
  | optionalDoublePass
  | optionalRedoublePass
  | notAvailable
deriving DecidableEq, Repr

namespace CubeDecision

/-- All verdicts, in the order of their declaration. -/
def all : List CubeDecision :=
  [doubleTake, doublePass, noDoubleTake, tooGoodTake, tooGoodPass, doubleBeaver, noDoubleBeaver,
    redoubleTake, redoublePass, noRedoubleTake, tooGoodRedoubleTake, tooGoodRedoublePass,
    noRedoubleBeaver, noDoubleDeadCube, noRedoubleDeadCube, optionalDoubleBeaver,
    optionalDoubleTake, optionalRedoubleTake, optionalDoublePass, optionalRedoublePass,
    notAvailable]

/-- The verdict in words. -/
def recommendation : CubeDecision → String
  | doubleTake => "Double, take"
  | doublePass => "Double, pass"
  | noDoubleTake => "No double, take"
  | tooGoodTake => "Too good to double, take"
  | tooGoodPass => "Too good to double, pass"
  | doubleBeaver => "Double, beaver"
  | noDoubleBeaver => "No double, beaver"
  | redoubleTake => "Redouble, take"
  | redoublePass => "Redouble, pass"
  | noRedoubleTake => "No redouble, take"
  | tooGoodRedoubleTake => "Too good to redouble, take"
  | tooGoodRedoublePass => "Too good to redouble, pass"
  | noRedoubleBeaver => "No redouble, beaver"
  | noDoubleDeadCube => "Never double, take (dead cube)"
  | noRedoubleDeadCube => "Never redouble, take (dead cube)"
  | optionalDoubleBeaver => "Optional double, beaver"
  | optionalDoubleTake => "Optional double, take"
  | optionalRedoubleTake => "Optional redouble, take"
  | optionalDoublePass => "Optional double, pass"
  | optionalRedoublePass => "Optional redouble, pass"
  | notAvailable => "Cube not available"

/-- Doubling is as good as not doubling. -/
def isOptional : CubeDecision → Bool
  | optionalDoubleBeaver | optionalDoubleTake | optionalRedoubleTake | optionalDoublePass
  | optionalRedoublePass => true
  | _ => false

/-- **The cube should be turned.**  Optional doubles are doubles. -/
def shouldDouble : CubeDecision → Bool
  | doubleTake | doublePass | doubleBeaver | redoubleTake | redoublePass => true
  | d => d.isOptional

/-- The player on roll should play on for a gammon. -/
def isTooGood : CubeDecision → Bool
  | tooGoodTake | tooGoodPass | tooGoodRedoubleTake | tooGoodRedoublePass => true
  | _ => false

/-- The cube cannot be turned, or it would be of no use. -/
def isDead : CubeDecision → Bool
  | notAvailable | noDoubleDeadCube | noRedoubleDeadCube => true
  | _ => false

/-- **The proper answer to a double.**  A beaver is a take. -/
def properResponse : CubeDecision → Option CubeAction
  | doublePass | tooGoodPass | redoublePass | tooGoodRedoublePass | optionalDoublePass
  | optionalRedoublePass => some .pass
  | d => if d.isDead then none else some .take

end CubeDecision

/-- A verdict with the equity of the best line for the player on roll. -/
structure CubeVerdict (α : Type) where
  decision : CubeDecision
  optimal : α
deriving DecidableEq, Repr

variable {α : Type} [Scalar α]

/-- The word for a first double or, once the cube has an owner, for a redouble. -/
def initialOrRe (s : Stakes) (initial redouble : CubeDecision) : CubeDecision :=
  if s.isCentered then initial else redouble

/-- **The verdict without a cube to turn**: in a match the cube is dead unless it is the
opponent's. -/
def deadVerdict (c : CubeLines α) (s : Stakes) : CubeVerdict α :=
  if !s.isMoney && s.owner != some s.onRoll.opponent then
    ⟨initialOrRe s .noDoubleDeadCube .noRedoubleDeadCube, c.noDouble⟩
  else ⟨.notAvailable, c.noDouble⟩

/-- The opponent would beaver a double: it gives the doubler no more than an even game. -/
def inBeaverRegion (c : CubeLines α) (s : Stakes) : Bool :=
  s.isMoney && s.beavers && Scalar.within (-2) 0 c.doubleTake

/-- The doubler wins gammons at times. -/
def hasGammons (c : CubeLines α) : Bool := decide (0 < c.winGammon)

/-- **The verdict where a double loses nothing and is taken.** -/
def takeVerdict (ctx : Context α) (c : CubeLines α) (s : Stakes) : CubeVerdict α :=
  let optional := ctx.isEqual c.doubleTake c.noDouble
  if inBeaverRegion c s then
    if c.doubleBeaver.getD (2 * c.doubleTake) < c.noDouble then ⟨.noDoubleBeaver, c.noDouble⟩
    else if optional then ⟨.optionalDoubleBeaver, c.doubleTake⟩
    else ⟨.doubleBeaver, c.doubleTake⟩
  else if optional then ⟨initialOrRe s .optionalDoubleTake .optionalRedoubleTake, c.doubleTake⟩
  else ⟨initialOrRe s .doubleTake .redoubleTake, c.doubleTake⟩

/-- **The verdict where a double loses nothing and is passed.**  Playing on is an option only with
gammons that count. -/
def passVerdict (ctx : Context α) (c : CubeLines α) (s : Stakes) : CubeVerdict α :=
  if ctx.isEqual c.noDouble c.doublePass && hasGammons c && s.gammonsCount then
    ⟨initialOrRe s .optionalDoublePass .optionalRedoublePass, c.doublePass⟩
  else ⟨initialOrRe s .doublePass .redoublePass, c.doublePass⟩

/-- **The verdict where playing on beats a double that is passed.**  Without gammons playing on
cannot beat cashing, so its edge is noise. -/
def tooGoodPassVerdict (c : CubeLines α) (s : Stakes) : CubeVerdict α :=
  if hasGammons c then ⟨initialOrRe s .tooGoodPass .tooGoodRedoublePass, c.noDouble⟩
  else ⟨initialOrRe s .doublePass .redoublePass, c.doublePass⟩

/-- **The verdict where playing on beats a double that is taken.** -/
def noDoubleVerdict (c : CubeLines α) (s : Stakes) : CubeVerdict α :=
  if c.doublePass < c.noDouble then
    if hasGammons c then ⟨initialOrRe s .tooGoodTake .tooGoodRedoubleTake, c.noDouble⟩
    else ⟨initialOrRe s .noDoubleTake .noRedoubleTake, c.noDouble⟩
  else if inBeaverRegion c s then
    ⟨initialOrRe s .noDoubleBeaver .noRedoubleBeaver, c.noDouble⟩
  else ⟨initialOrRe s .noDoubleTake .noRedoubleTake, c.noDouble⟩

/-- **The verdict on evaluated lines.** -/
def verdict (ctx : Context α) (c : CubeLines α) (s : Stakes) : CubeVerdict α :=
  if !s.cubeAvailable then deadVerdict c s
  else if c.noDouble ≤ c.doubleTake ∧ c.noDouble ≤ c.doublePass then
    if c.doubleTake < c.doublePass then takeVerdict ctx c s else passVerdict ctx c s
  else if c.doubleTake < c.noDouble then
    if c.doublePass < c.doubleTake then tooGoodPassVerdict c s else noDoubleVerdict c s
  else tooGoodPassVerdict c s

namespace Context

variable (ctx : Context α) (c : CubeLines α) (s : Stakes)

/-- **The verdict on given lines**, none while they have not been evaluated. -/
def classify : Option (CubeVerdict α) := if c.isEvaluated then some (verdict ctx c s) else none

/-- Doubling loses less than the threshold for close decisions. -/
def isCloseFor (v : CubeVerdict α) : Bool :=
  decide (v.optimal - c.response < ctx.options.closeCube)

/-- The decision has a verdict, and a close one. -/
def isClose : Bool := (ctx.classify c s).any (ctx.isCloseFor c)

end Context

/-! ## Mistakes -/

/-- **Kind of a cube error.**  Errors around the doubling window are below it or above it. -/
inductive CubeErrorKind where
  | missedDoubleBelowCash
  | missedDoubleAboveCash
  | wrongDoubleBelowCash
  | wrongDoubleAboveCash
  | wrongTake
  | wrongPass
deriving DecidableEq, Repr

namespace CubeErrorKind

/-- All kinds in order. -/
def all : List CubeErrorKind :=
  [missedDoubleBelowCash, missedDoubleAboveCash, wrongDoubleBelowCash, wrongDoubleAboveCash,
    wrongTake, wrongPass]

def isMissedDouble : CubeErrorKind → Bool
  | missedDoubleBelowCash | missedDoubleAboveCash => true
  | _ => false

def isWrongDouble : CubeErrorKind → Bool
  | wrongDoubleBelowCash | wrongDoubleAboveCash => true
  | _ => false

end CubeErrorKind

/-- **A cube error** with its cost in equity at the present cube. -/
structure CubeError (α : Type) where
  kind : CubeErrorKind
  cost : α
deriving DecidableEq, Repr

/-- The error that an action would be, and its cost.  Not turning a cube that is not available is
none. -/
def candidateError (c : CubeLines α) (v : CubeVerdict α) : CubeAction → Option (CubeError α)
  | .noDouble =>
    if v.decision = .notAvailable then none
    else
      some ⟨if c.doublePass < c.doubleTake then .missedDoubleAboveCash else .missedDoubleBelowCash,
        v.optimal - c.noDouble⟩
  | .double =>
    some ⟨if c.doublePass < c.noDouble then .wrongDoubleAboveCash else .wrongDoubleBelowCash,
      v.optimal - c.response⟩
  | .take => some ⟨.wrongTake, c.doubleTake - c.doublePass⟩
  | .pass => some ⟨.wrongPass, c.doublePass - c.doubleTake⟩

namespace Context

variable (ctx : Context α) (c : CubeLines α) (s : Stakes)

/-- **The error made by an action** against a verdict: one that costs more than the epsilon. -/
def mistakeFor (v : CubeVerdict α) (action : CubeAction) : Option (CubeError α) :=
  (candidateError c v action).filter fun e => decide (ctx.options.equityEpsilon < e.cost)

/-- The error made by an action, if the lines can be judged. -/
def mistake (action : CubeAction) : Option (CubeError α) :=
  (ctx.classify c s).bind fun v => ctx.mistakeFor c v action

/-- **What an action costs**, zero when it was right. -/
def actionCost (action : CubeAction) : α := ((ctx.mistake c s action).map CubeError.cost).getD 0

/-- The action is an error of a kind of the given sort. -/
def errs (sort : CubeErrorKind → Bool) (action : CubeAction) : Bool :=
  (ctx.mistake c s action).any fun e => sort e.kind

end Context

/-- **The cube as a percentage.**  Where doubling is wrong, the place of the equity without a double
between take and pass: for "no double" the fraction of doubles that would have to be passed before
doubling is right, for "too good, pass" the fraction that would have to be taken. -/
def percent (c : CubeLines α) : CubeDecision → Option α
  | .noDoubleTake | .noDoubleBeaver | .noRedoubleTake | .noRedoubleBeaver =>
    some ((c.noDouble - c.doubleTake) / (c.doublePass - c.doubleTake))
  | .tooGoodPass | .tooGoodRedoublePass =>
    if c.noDouble ≤ c.doubleTake then
      some ((c.noDouble - c.doublePass) / (c.doubleTake - c.doublePass))
    else none
  | _ => none

end Backgammon.Analysis
