import Backgammon.Analysis.CubeDecision
import Backgammon.Analysis.Skill

/-!
# Analysis/Statistics — what is counted over a game, a match or a session

Four kinds of records are counted: plays, cube decisions, the luck of rolls, and results of games.
How a record is judged depends on the record alone, so judging and counting are apart.  All counts stay
below `2 ^ 32`, so natural numbers stand for words.

* `Amount` — an error or luck amount in equity and in points or winning chance.
* `Statistics` — the counters and sums; `Statistics.add` counts one record, `Statistics.merge` puts
  two parts together.
* `Statistics.rates` — error totals and rates of one player.
-/

namespace Backgammon.Analysis

/-! ## Amounts, counts and sums -/

/-- **An amount of error or luck**, as equity at the cube of the moment and in points or match
winning chance. -/
structure Amount (α : Type) where
  normalized : α
  unnormalized : α
deriving DecidableEq, Repr

/-- The unit in which amounts are read. -/
inductive AmountUnit where
  | normalized
  | unnormalized
deriving DecidableEq, Repr

namespace Amount

variable {α : Type}

def get (a : Amount α) : AmountUnit → α
  | .normalized => a.normalized
  | .unnormalized => a.unnormalized

instance [Add α] : Add (Amount α) :=
  ⟨fun a b => ⟨a.normalized + b.normalized, a.unnormalized + b.unnormalized⟩⟩

@[simp] theorem get_add [Add α] (a b : Amount α) (u : AmountUnit) :
    (a + b).get u = a.get u + b.get u := by cases u <;> rfl

def zero [Scalar α] : Amount α := ⟨0, 0⟩

end Amount

/-- How many plays fell into each class. -/
structure SkillCounts where
  veryBad : Nat := 0
  bad : Nat := 0
  doubtful : Nat := 0
  none : Nat := 0
deriving DecidableEq, Repr

namespace SkillCounts

def get (c : SkillCounts) : Skill → Nat
  | .veryBad => c.veryBad
  | .bad => c.bad
  | .doubtful => c.doubtful
  | .none => c.none

/-- Counts one more play. -/
def count (c : SkillCounts) : Skill → SkillCounts
  | .veryBad => { c with veryBad := c.veryBad + 1 }
  | .bad => { c with bad := c.bad + 1 }
  | .doubtful => { c with doubtful := c.doubtful + 1 }
  | .none => { c with none := c.none + 1 }

instance : Add SkillCounts :=
  ⟨fun a b => ⟨a.veryBad + b.veryBad, a.bad + b.bad, a.doubtful + b.doubtful, a.none + b.none⟩⟩

theorem get_count (c : SkillCounts) (s t : Skill) :
    (c.count s).get t = c.get t + if s = t then 1 else 0 := by
  cases s <;> cases t <;> rfl

@[simp] theorem get_add (a b : SkillCounts) (s : Skill) : (a + b).get s = a.get s + b.get s := by
  cases s <;> rfl

end SkillCounts

/-- How many rolls fell into each class. -/
structure LuckCounts where
  veryBad : Nat := 0
  bad : Nat := 0
  none : Nat := 0
  good : Nat := 0
  veryGood : Nat := 0
deriving DecidableEq, Repr

namespace LuckCounts

def get (c : LuckCounts) : Luck → Nat
  | .veryBad => c.veryBad
  | .bad => c.bad
  | .none => c.none
  | .good => c.good
  | .veryGood => c.veryGood

/-- Counts one more roll. -/
def count (c : LuckCounts) : Luck → LuckCounts
  | .veryBad => { c with veryBad := c.veryBad + 1 }
  | .bad => { c with bad := c.bad + 1 }
  | .none => { c with none := c.none + 1 }
  | .good => { c with good := c.good + 1 }
  | .veryGood => { c with veryGood := c.veryGood + 1 }

instance : Add LuckCounts :=
  ⟨fun a b => ⟨a.veryBad + b.veryBad, a.bad + b.bad, a.none + b.none, a.good + b.good,
    a.veryGood + b.veryGood⟩⟩

theorem get_count (c : LuckCounts) (s t : Luck) :
    (c.count s).get t = c.get t + if s = t then 1 else 0 := by
  cases s <;> cases t <;> rfl

@[simp] theorem get_add (a b : LuckCounts) (s : Luck) : (a + b).get s = a.get s + b.get s := by
  cases s <;> rfl

end LuckCounts

/-- How many errors of one kind there were, and what they cost together. -/
structure ErrorTotal (α : Type) where
  count : Nat
  cost : Amount α
deriving DecidableEq, Repr

instance {α : Type} [Add α] : Add (ErrorTotal α) := ⟨fun a b => ⟨a.count + b.count, a.cost + b.cost⟩⟩

/-- **Cube errors by kind.** -/
structure CubeErrors (α : Type) where
  missedDoubleBelowCash : ErrorTotal α
  missedDoubleAboveCash : ErrorTotal α
  wrongDoubleBelowCash : ErrorTotal α
  wrongDoubleAboveCash : ErrorTotal α
  wrongTake : ErrorTotal α
  wrongPass : ErrorTotal α
deriving DecidableEq, Repr

namespace CubeErrors

variable {α : Type}

def get (c : CubeErrors α) : CubeErrorKind → ErrorTotal α
  | .missedDoubleBelowCash => c.missedDoubleBelowCash
  | .missedDoubleAboveCash => c.missedDoubleAboveCash
  | .wrongDoubleBelowCash => c.wrongDoubleBelowCash
  | .wrongDoubleAboveCash => c.wrongDoubleAboveCash
  | .wrongTake => c.wrongTake
  | .wrongPass => c.wrongPass

def ofFn (f : CubeErrorKind → ErrorTotal α) : CubeErrors α :=
  ⟨f .missedDoubleBelowCash, f .missedDoubleAboveCash, f .wrongDoubleBelowCash,
    f .wrongDoubleAboveCash, f .wrongTake, f .wrongPass⟩

@[simp] theorem get_ofFn (f : CubeErrorKind → ErrorTotal α) (k : CubeErrorKind) :
    (ofFn f).get k = f k := by cases k <;> rfl

@[ext] theorem ext_get {c d : CubeErrors α} (h : ∀ k, c.get k = d.get k) : c = d := by
  cases c; cases d
  simp only [mk.injEq]
  exact ⟨h .missedDoubleBelowCash, h .missedDoubleAboveCash, h .wrongDoubleBelowCash,
    h .wrongDoubleAboveCash, h .wrongTake, h .wrongPass⟩

/-- Counts one more error. -/
def count [Add α] (c : CubeErrors α) (kind : CubeErrorKind) (cost : Amount α) : CubeErrors α :=
  ofFn fun k => if k = kind then c.get k + ⟨1, cost⟩ else c.get k

instance [Add α] : Add (CubeErrors α) := ⟨fun c d => ofFn fun k => c.get k + d.get k⟩

@[simp] theorem get_count [Add α] (c : CubeErrors α) (kind k : CubeErrorKind) (cost : Amount α) :
    (c.count kind cost).get k = if k = kind then c.get k + ⟨1, cost⟩ else c.get k := get_ofFn _ k

@[simp] theorem get_add [Add α] (c d : CubeErrors α) (k : CubeErrorKind) :
    (c + d).get k = c.get k + d.get k := get_ofFn _ k

variable [Scalar α]

def zero : CubeErrors α := ofFn fun _ => ⟨0, .zero⟩

/-- The cost of all errors. -/
def total (c : CubeErrors α) : Amount α :=
  (CubeErrorKind.all.map fun k => (c.get k).cost).foldl (· + ·) .zero

/-- The number of all errors. -/
def number (c : CubeErrors α) : Nat := CubeErrorKind.all.foldl (fun n k => n + (c.get k).count) 0

end CubeErrors

/-- **Results of games**: their number, sum and sum of squares. -/
structure ResultSummary (α : Type) where
  games : Nat
  sum : α
  sumSq : α
deriving DecidableEq, Repr

namespace ResultSummary

variable {α : Type}

instance [Add α] : Add (ResultSummary α) :=
  ⟨fun a b => ⟨a.games + b.games, a.sum + b.sum, a.sumSq + b.sumSq⟩⟩

variable [Scalar α]

def zero : ResultSummary α := ⟨0, 0, 0⟩

/-- One more result. -/
def push (r : ResultSummary α) (x : α) : ResultSummary α :=
  ⟨r.games + 1, r.sum + x, r.sumSq + x * x⟩

/-- Mean result, none without games. -/
def mean? (r : ResultSummary α) : Option α := Scalar.quotient? r.sum (r.games : α)

/-- Sample variance of the results, none with fewer than two games. -/
def variance? (r : ResultSummary α) : Option α := Scalar.sampleVariance? r.games r.sum r.sumSq

end ResultSummary

/-! ## Records -/

/-- **What can be recorded.** -/
inductive Record (α : Type) where
  /-- A play out of a number of legal ones, with its loss against the best if it was analysed. -/
  | play (stakes : Stakes) (player : Player) (loss : Option α) (legal : Nat)
  /-- A cube action.  The stakes and the lines are the doubler's; the player is the one who acts. -/
  | cube (stakes : Stakes) (player : Player) (lines : CubeLines α) (action : CubeAction)
  /-- The luck of a roll. -/
  | luck (stakes : Stakes) (player : Player) (amount : α)
  /-- The end of a game, with the score and Crawford state at its start. -/
  | result (stakes : Stakes) (winner : Player) (points : Nat)

variable {α : Type} [Scalar α]

namespace Context

/-- The magnitude of the loss of a play, when plays are analysed and this one has been. -/
def playLoss? (ctx : Context α) (loss : Option α) : Option α :=
  if ctx.options.analyseMoves then loss.map Scalar.abs else none

/-- **The class of a play**; one that is not analysed passes for sound. -/
def playSkill (ctx : Context α) (loss : Option α) : Skill :=
  match ctx.playLoss? loss with
  | some loss => ctx.skill loss
  | none => .none

/-- **The verdict under which a cube action is counted**, if it is: not doubling counts only where
doubling was possible and of use. -/
def countedVerdict? (ctx : Context α) (s : Stakes) (c : CubeLines α) (action : CubeAction) :
    Option (CubeVerdict α) :=
  if ctx.options.analyseCube then
    (ctx.classify c s).filter fun v => !(action == .noDouble && v.decision.isDead)
  else none

/-- The error that a counted cube action is, if any. -/
def countedError? (ctx : Context α) (s : Stakes) (c : CubeLines α) (action : CubeAction) :
    Option (CubeError α) :=
  (ctx.countedVerdict? s c action).bind fun v => ctx.mistakeFor c v action

/-- An equity amount in both units. -/
def amount (ctx : Context α) (s : Stakes) (equity : α) : Amount α :=
  ⟨equity, ctx.met.unnormalize s equity⟩

/-- **What the winner gained by a game**: points, or match winning chance. -/
def gain (ctx : Context α) (s : Stakes) (winner : Player) (points : Nat) : α :=
  if s.isMoney then (points : α)
  else
    let s := { s with onRoll := winner }
    ctx.met.afterGame s winner points - ctx.met.atScore s

end Context

/-! ## Counting -/

/-- **Accumulated statistics** of a game, a match or a session.  All counts stay below `2 ^ 32`. -/
structure Statistics (α : Type) where
  movesAnalysed : Bool
  cubeAnalysed : Bool
  diceAnalysed : Bool
  totalMoves : PerPlayer Nat
  unforcedMoves : PerPlayer Nat
  movesBySkill : PerPlayer SkillCounts
  checkerError : PerPlayer (Amount α)
  rollsByLuck : PerPlayer LuckCounts
  luck : PerPlayer (Amount α)
  totalCube : PerPlayer Nat
  closeCube : PerPlayer Nat
  doubles : PerPlayer Nat
  takes : PerPlayer Nat
  passes : PerPlayer Nat
  cubeErrors : PerPlayer (CubeErrors α)
  games : Nat
  actualResult : PerPlayer (ResultSummary α)
  luckAdjustedResult : PerPlayer (ResultSummary α)
  /-- Luck since the last result, in points or winning chance. -/
  openLuck : PerPlayer α
deriving DecidableEq, Repr

/-- Totals and rates of one player in one unit.  A rate is missing when there is nothing to divide
by. -/
structure ErrorRates (α : Type) where
  checkerTotal : α
  checkerPerMove : Option α
  cubeTotal : α
  cubePerDecision : Option α
  combinedTotal : α
  combinedPerDecision : Option α
deriving DecidableEq, Repr

namespace Statistics

/-- Nothing recorded yet. -/
def empty : Statistics α where
  movesAnalysed := false
  cubeAnalysed := false
  diceAnalysed := false
  totalMoves := .splat 0
  unforcedMoves := .splat 0
  movesBySkill := .splat {}
  checkerError := .splat .zero
  rollsByLuck := .splat {}
  luck := .splat .zero
  totalCube := .splat 0
  closeCube := .splat 0
  doubles := .splat 0
  takes := .splat 0
  passes := .splat 0
  cubeErrors := .splat .zero
  games := 0
  actualResult := .splat .zero
  luckAdjustedResult := .splat .zero
  openLuck := .splat 0

instance : Inhabited (Statistics α) := ⟨empty⟩

variable (t : Statistics α) (ctx : Context α) (s : Stakes) (p : Player)

/-- **Counts a play.**  A loss counts only when there was a choice. -/
def addPlay (loss : Option α) (legal : Nat) : Statistics α :=
  let t := { t with
    totalMoves := t.totalMoves.update p (· + 1)
    movesBySkill := t.movesBySkill.update p (·.count (ctx.playSkill loss)) }
  match ctx.playLoss? loss with
  | none => t
  | some loss =>
    let t := { t with movesAnalysed := true }
    if 1 < legal then
      { t with
        unforcedMoves := t.unforcedMoves.update p (· + 1)
        checkerError := t.checkerError.update p (· + ctx.amount s loss) }
    else t

/-- **Counts a cube action.**  Doubles, takes and passes are close decisions, not doubling is one
when doubling would lose little. -/
def addCube (c : CubeLines α) (action : CubeAction) : Statistics α :=
  match ctx.countedVerdict? s c action with
  | none => t
  | some v =>
    let one (b : Bool) (x : PerPlayer Nat) := if b then x.update p (· + 1) else x
    let t := { t with
      cubeAnalysed := true
      totalCube := one true t.totalCube
      closeCube := one (action != .noDouble || ctx.isCloseFor c v) t.closeCube
      doubles := one (action == .double) t.doubles
      takes := one (action == .take) t.takes
      passes := one (action == .pass) t.passes }
    match ctx.mistakeFor c v action with
    | none => t
    | some e => { t with cubeErrors := t.cubeErrors.update p (·.count e.kind (ctx.amount s e.cost)) }

/-- **Counts the luck of a roll.** -/
def addLuck (amount : α) : Statistics α :=
  if ctx.options.analyseDice then
    let both := ctx.amount s amount
    { t with
      diceAnalysed := true
      rollsByLuck := t.rollsByLuck.update p (·.count (ctx.luck amount))
      luck := t.luck.update p (· + both)
      openLuck := t.openLuck.update p (· + both.unnormalized) }
  else t

/-- **Closes a game**: what the winner gained the loser lost, with and without the luck of the
game. -/
def addResult (winner : Player) (points : Nat) : Statistics α :=
  let gain := ctx.gain s winner points
  let actual (q : Player) := if q = winner then gain else -gain
  { t with
    games := t.games + 1
    actualResult := .ofFn fun q => (t.actualResult.get q).push (actual q)
    luckAdjustedResult := .ofFn fun q =>
      (t.luckAdjustedResult.get q).push
        (actual q - t.openLuck.get q + t.openLuck.get q.opponent)
    openLuck := .splat 0 }

/-- **Counts one record.** -/
def add (t : Statistics α) (ctx : Context α) : Record α → Statistics α
  | .play s p loss legal => t.addPlay ctx s p loss legal
  | .cube s p c action => t.addCube ctx s p c action
  | .luck s p amount => t.addLuck ctx s p amount
  | .result s winner points => t.addResult ctx s winner points

/-- Counts records one after the other. -/
def addAll (t : Statistics α) (ctx : Context α) (records : List (Record α)) : Statistics α :=
  records.foldl (·.add ctx ·) t

/-- **Puts two parts together.** -/
def merge (t u : Statistics α) : Statistics α where
  movesAnalysed := t.movesAnalysed || u.movesAnalysed
  cubeAnalysed := t.cubeAnalysed || u.cubeAnalysed
  diceAnalysed := t.diceAnalysed || u.diceAnalysed
  totalMoves := t.totalMoves + u.totalMoves
  unforcedMoves := t.unforcedMoves + u.unforcedMoves
  movesBySkill := t.movesBySkill + u.movesBySkill
  checkerError := t.checkerError + u.checkerError
  rollsByLuck := t.rollsByLuck + u.rollsByLuck
  luck := t.luck + u.luck
  totalCube := t.totalCube + u.totalCube
  closeCube := t.closeCube + u.closeCube
  doubles := t.doubles + u.doubles
  takes := t.takes + u.takes
  passes := t.passes + u.passes
  cubeErrors := t.cubeErrors + u.cubeErrors
  games := t.games + u.games
  actualResult := t.actualResult + u.actualResult
  luckAdjustedResult := t.luckAdjustedResult + u.luckAdjustedResult
  openLuck := t.openLuck + u.openLuck

/-! ## Rates -/

/-- **Error totals and rates** of one player. -/
def rates (u : AmountUnit) : ErrorRates α :=
  let unforced : α := t.unforcedMoves.get p
  let close : α := t.closeCube.get p
  let checker := (t.checkerError.get p).get u
  let cube := (t.cubeErrors.get p).total.get u
  { checkerTotal := checker
    checkerPerMove := Scalar.quotient? checker unforced
    cubeTotal := cube
    cubePerDecision := Scalar.quotient? cube close
    combinedTotal := checker + cube
    combinedPerDecision := Scalar.quotient? (checker + cube) (unforced + close) }

/-- Total error per move of either player. -/
def errorPerAnyMove? (u : AmountUnit) : Option α :=
  let moves := t.totalMoves.zero + t.totalMoves.one
  Scalar.quotient? (t.rates p u).combinedTotal (moves : α)

/-- Luck per move of the player. -/
def luckPerMove? (u : AmountUnit) : Option α :=
  Scalar.quotient? ((t.luck.get p).get u) (t.totalMoves.get p : α)

/-- The number of cube errors of the player. -/
def cubeErrorCount : Nat := (t.cubeErrors.get p).number

end Statistics

end Backgammon.Analysis
