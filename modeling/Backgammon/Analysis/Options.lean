import Backgammon.MatchEquity
import Backgammon.SettingError

/-!
# Analysis/Options — thresholds of the analysis

* `SkillThresholds`, `LuckThresholds`, `Comparison` — where one class of play or luck ends and the
  next begins, and to which of them the threshold itself belongs.
* `Options` — all settings of the analysis; `Options.validate` says which are allowed.
* `Context` — the options together with the match winning chances.
-/

namespace Backgammon.Analysis

/-- Equity losses beyond which a play is doubtful, bad or very bad. -/
structure SkillThresholds (α : Type) where
  doubtful : α
  bad : α
  veryBad : α
deriving DecidableEq, Repr

/-- Magnitudes of luck beyond which a roll is lucky or unlucky. -/
structure LuckThresholds (α : Type) where
  veryBad : α
  bad : α
  good : α
  veryGood : α
deriving DecidableEq, Repr

/-- Whether a value exactly at a threshold is beyond it. -/
inductive Comparison where
  | strict
  | inclusive
deriving DecidableEq, Repr

/-- **The settings of the analysis.** -/
structure Options (α : Type) where
  skill : SkillThresholds α
  luck : LuckThresholds α
  comparison : Comparison
  /-- A cube decision is close when doubling loses less than this. -/
  closeCube : α
  /-- Equities no further apart than this count as equal. -/
  equityEpsilon : α
  ratingOffset : α
  analyseMoves : Bool
  analyseCube : Bool
  analyseDice : Bool
deriving DecidableEq, Repr

variable {α : Type} [Scalar α]

/-- The magnitude lies beyond the threshold. -/
def Comparison.exceeds (c : Comparison) (magnitude threshold : α) : Bool :=
  match c with
  | strict => decide (threshold < magnitude)
  | inclusive => decide (threshold ≤ magnitude)

namespace Options

/-- The usual settings. -/
def standard : Options α where
  skill := ⟨0.04, 0.08, 0.16⟩
  luck := ⟨0.6, 0.3, 0.3, 0.6⟩
  comparison := .strict
  closeCube := 0.16
  equityEpsilon := 1e-5
  ratingOffset := 2050
  analyseMoves := true
  analyseCube := true
  analyseDice := true

instance : Inhabited (Options α) := ⟨standard⟩

/-- **Which settings are allowed**: positive thresholds in ascending order, a small epsilon and a
finite offset. -/
def validate (o : Options α) : Except (SettingError α) Unit := do
  checkPositive "skill_doubtful" o.skill.doubtful
  checkPositive "skill_bad" o.skill.bad
  checkPositive "skill_very_bad" o.skill.veryBad
  if !(decide (o.skill.doubtful ≤ o.skill.bad) && decide (o.skill.bad ≤ o.skill.veryBad)) then
    throw (.invalid "skill" .skillOrder)
  checkPositive "luck_very_bad" o.luck.veryBad
  checkPositive "luck_bad" o.luck.bad
  checkPositive "luck_good" o.luck.good
  checkPositive "luck_very_good" o.luck.veryGood
  if decide (o.luck.veryBad < o.luck.bad) || decide (o.luck.veryGood < o.luck.good) then
    throw (.invalid "luck" .luckOrder)
  checkPositive "close_cube_threshold" o.closeCube
  checkRange "equity_epsilon" o.equityEpsilon 0 0.01
  if !Scalar.isFinite o.ratingOffset then throw (.invalid "fibs_rating_offset" .notFinite)

end Options

/-- **What every judgement reads** besides the decision itself. -/
structure Context (α : Type) where
  options : Options α
  met : MatchEquity α

/-- The two equities count as equal. -/
def Context.isEqual (ctx : Context α) (a b : α) : Bool :=
  decide (Scalar.abs (a - b) ≤ ctx.options.equityEpsilon)

end Backgammon.Analysis
