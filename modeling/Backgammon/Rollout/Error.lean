import Backgammon.SettingError

/-!
# Rollout/Error — why a trial or a rollout fails

* `TrialError` — what ends a single trial without a result.
* `RolloutError` — what ends a rollout; `RolloutError.message` words it.
-/

namespace Backgammon.Rollout

/-- **Why a trial has no result.** -/
inductive TrialError where
  | evaluator (reason : String)
  | dice (reason : String)
  /-- A collaborator broke down. -/
  | crashed
  /-- The trial was still going on after the greatest number of plies allowed. -/
  | unfinished
deriving DecidableEq, Repr

/-- **Why a rollout fails.** -/
inductive RolloutError (α : Type) where
  | evaluator (reason : String)
  | dice (reason : String)
  /-- A worker broke down while it played a trial. -/
  | worker (index : Nat)
  | unfinished
  | setting (error : SettingError α)
deriving DecidableEq, Repr

/-- The failure of a rollout by that of a trial which a worker has played. -/
def RolloutError.ofTrial {α : Type} (worker : Nat) : TrialError → RolloutError α
  | .evaluator reason => .evaluator reason
  | .dice reason => .dice reason
  | .crashed => .worker worker
  | .unfinished => .unfinished

/-- The failure in words. -/
def RolloutError.message : RolloutError Float → String
  | evaluator _ => "evaluator failed during a rollout trial"
  | dice _ => "dice source failed during a rollout trial"
  | worker i => "rollout worker failed: worker " ++ toString i ++ " panicked"
  | unfinished => "a rollout trial did not end"
  | setting e => e.message

end Backgammon.Rollout
