import Backgammon.Evaluation
import Backgammon.Rollout.Stopping

/-!
# Rollout/Settings — how a rollout is done

* `Settings` — number of trials and batches, dice, how either player looks at plays and the cube early
  and late in a trial, where trials are cut short, and when to stop.
* `Settings.validate` — which settings are allowed.
* `Settings.forPlay`, `Settings.forCube` — what holds for a player at a ply.
-/

namespace Backgammon.Rollout

/-- **Breadth of search**: the best `accept` moves at depth zero, and up to `extra` more that are
within `threshold` of the best. -/
structure MoveFilter (α : Type) where
  accept : Nat
  extra : Nat
  threshold : α
deriving DecidableEq, Repr

/-- How many ranks there are for the accepted and the extra moves together.  The sum is one of 64 bits:
what does not fit wraps around. -/
def MoveFilter.reach {α : Type} (f : MoveFilter α) : Nat := (f.accept + f.extra) % UInt64.size

/-- **The settings of a rollout.** -/
structure Settings (α : Type) where
  /-- Trials per candidate. -/
  trials : Nat
  /-- Trials per candidate between two checks. -/
  batchSize : Nat
  parallelism : Nat
  seed : UInt64
  rotateDice : Bool
  antithetic : Bool
  /-- The position is the one at the start of a game, so the first roll is no double. -/
  initialPosition : Bool
  /-- The cube is in play. -/
  cubeful : Bool
  /-- The cube may be turned before the first roll. -/
  cubeAtStart : Bool
  chequer : PerPlayer (EvalSettings α)
  cube : PerPlayer (EvalSettings α)
  late : PerPlayer (EvalSettings α)
  lateCube : PerPlayer (EvalSettings α)
  /-- Ply from which the late settings hold. -/
  lateAfter : Option Nat
  /-- The luck of every roll is taken off the result. -/
  varianceReduction : Bool
  truncation : EvalSettings α
  /-- Ply at which a trial is cut short. -/
  truncateAt : Option Nat
  /-- A trial is cut short once a bearoff database covers the position. -/
  truncateBearoff : Bool
  stopping : StoppingRule α
  /-- Filters by depth, for depth one first. -/
  moveFilters : List (MoveFilter α)
  /-- Milliseconds between two reports. -/
  progressInterval : Nat
deriving DecidableEq, Repr

variable {α : Type} [Scalar α]

def MoveFilter.standard : MoveFilter α := ⟨0, 8, 0.16⟩

namespace Settings

def standard : Settings α where
  trials := 1296
  batchSize := 36
  parallelism := 4
  seed := 0
  rotateDice := true
  antithetic := false
  initialPosition := false
  cubeful := true
  cubeAtStart := true
  chequer := .splat .static
  cube := .splat .static
  late := .splat .static
  lateCube := .splat .static
  lateAfter := none
  varianceReduction := false
  truncation := .static
  truncateAt := none
  truncateBearoff := true
  stopping := .standard
  moveFilters := List.replicate EvalSettings.maxPlies .standard
  progressInterval := 500

/-- Both players' settings are allowed. -/
def validateBoth (x : PerPlayer (EvalSettings α)) : Except (SettingError α) Unit := do
  x.zero.validate
  x.one.validate

/-- **Which settings are allowed.** -/
def validate (c : Settings α) : Except (SettingError α) Unit := do
  checkCount "trials" c.trials
  checkCount "batch_size" c.batchSize
  checkCount "parallelism" c.parallelism
  validateBoth c.chequer
  validateBoth c.cube
  validateBoth c.late
  validateBoth c.lateCube
  c.truncation.validate
  if c.truncateAt = some 0 then throw (.invalid "truncate_plies" .notPositive)
  c.moveFilters.forM fun f => checkRange "move_filter_threshold" f.threshold 0 Scalar.largest
  c.stopping.validate

/-- The late settings hold at a ply. -/
def isLate (c : Settings α) (ply : Nat) : Bool := c.lateAfter.any fun first => decide (first ≤ ply)

/-- **How a player looks at plays** at a ply. -/
def forPlay (c : Settings α) (p : Player) (ply : Nat) : EvalSettings α :=
  if c.isLate ply then c.late.get p else c.chequer.get p

/-- **How a player looks at the cube** at a ply. -/
def forCube (c : Settings α) (p : Player) (ply : Nat) : EvalSettings α :=
  if c.isLate ply then c.lateCube.get p else c.cube.get p

/-- The move filter for a search depth; there is none for depth zero. -/
def moveFilter? (c : Settings α) (plies : Nat) : Option (MoveFilter α) :=
  if plies = 0 then none else c.moveFilters[plies - 1]?

/-- The equity by which candidates are ranked. -/
def key (c : Settings α) : Component := if c.cubeful then .cubefulEquity else .cubelessEquity

end Settings

end Backgammon.Rollout
