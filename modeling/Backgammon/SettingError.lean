import Backgammon.Scalar
import Backgammon.Decimal.Shortest

/-!
# SettingError — why a setting is refused

* `SettingError` — the setting's name and what is wrong with it; `SettingError.message` words it.
* `checkRange` — the one check most settings get: a number between two bounds.
-/

namespace Backgammon

/-- What is wrong with a setting, other than a number out of its range. -/
inductive SettingError.Reason (α : Type) where
  | notPositive
  | numberNotPositive (x : α)
  | notFinite
  | skillOrder
  | luckOrder
  | unknownMode (word : String)
  | emptyTable
  | tableShape (len : Nat)
deriving DecidableEq, Repr

/-- **Why a setting is refused.** -/
inductive SettingError (α : Type) where
  | invalid (setting : String) (reason : SettingError.Reason α)
  | outOfRange (setting : String) (value lo hi : α)
deriving DecidableEq, Repr

namespace SettingError

/-- The reason in words. -/
def Reason.message : Reason Float → String
  | notPositive => "must be positive"
  | numberNotPositive x => Decimal.text x ++ " must be positive"
  | notFinite => "must be finite"
  | skillOrder => "thresholds must ascend from doubtful to very bad"
  | luckOrder => "very good/bad thresholds must not be below good/bad"
  | unknownMode word => "unknown mode \x60" ++ word ++ "\x60"
  | emptyTable => "table is empty"
  | tableShape len =>
    let n := toString len
    "table must be " ++ n ++ " x " ++ n ++ " with " ++ n ++ " post-Crawford entries"

/-- The error in words. -/
def message : SettingError Float → String
  | invalid setting reason => "invalid value for \x60" ++ setting ++ "\x60: " ++ reason.message
  | outOfRange setting value lo hi =>
    "\x60" ++ setting ++ "\x60 = " ++ Decimal.text value ++ " is out of range [" ++
      Decimal.text lo ++ ", " ++ Decimal.text hi ++ "]"

end SettingError

variable {α : Type} [Scalar α]

/-- **The range check**: `value` is a number and neither below `lo` nor above `hi`. -/
def checkRange (setting : String) (value lo hi : α) : Except (SettingError α) Unit :=
  if Scalar.isNaN value || decide (value < lo) || decide (hi < value) then
    .error (.outOfRange setting value lo hi)
  else .ok ()

/-- A positive finite number. -/
def checkPositive (setting : String) (value : α) : Except (SettingError α) Unit :=
  if Scalar.isFinite value && decide (0 < value) then .ok ()
  else .error (.invalid setting (.numberNotPositive value))

/-- A positive count. -/
def checkCount (setting : String) (n : Nat) : Except (SettingError α) Unit :=
  if n = 0 then .error (.invalid setting .notPositive) else .ok ()

end Backgammon
