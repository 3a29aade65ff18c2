import Backgammon.Equities
import Backgammon.SettingError

/-!
# Evaluation — asking an evaluator about a position

An evaluator belongs to whoever runs the analysis.  It may fail, and it may have effects of its own,
so it answers in a monad; laws about the analysis take the identity monad.

* `EvalSettings` — how a position is to be looked at; `EvalSettings.validate` says which are allowed.
* `Fault` — how a collaborator can fail.
* `Evaluator` — from a board and the stakes to chances and equities, seen by the player on roll.
-/

namespace Backgammon

/-- How a set of equities was obtained. -/
inductive Provenance where
  | unevaluated
  | evaluated
  | rolledOut
deriving DecidableEq, Repr

/-- **How a position is looked at**: search depth, with or without the cube, and noise. -/
structure EvalSettings (α : Type) where
  plies : Nat
  cubeful : Bool
  deterministic : Bool
  noise : α
deriving DecidableEq, Repr

namespace EvalSettings

variable {α : Type} [Scalar α]

/-- The deepest search allowed. -/
def maxPlies : Nat := 7

/-- The static evaluation: cubeful, without search or noise. -/
def static : EvalSettings α := ⟨0, true, true, 0⟩

/-- Depth and noise are in their ranges. -/
def validate (c : EvalSettings α) : Except (SettingError α) Unit := do
  checkRange "plies" (c.plies : α) 0 (maxPlies : α)
  checkRange "noise" c.noise 0 1

end EvalSettings

/-- **How a collaborator fails**: it reports a reason, or it breaks down without one. -/
inductive Fault where
  | failed (reason : String)
  | crashed
deriving DecidableEq, Repr

/-- **An evaluator.**  In a match the cubeful equity of its answer is a match winning chance. -/
abbrev Evaluator (m : Type → Type) (α Board : Type) : Type :=
  Board → Stakes → EvalSettings α → ExceptT Fault m (Equities α)

end Backgammon
