import Backgammon.Analysis.Options
import Backgammon.Config.Source
import Backgammon.Rollout.Settings

/-!
# Config/Settings — settings read from a source

Every setting that is not configured, or not as something it can be taken for, has its default.  What
has been read is checked.

* `EvalSettings.load` — how a position is looked at, from four names with a common stem.
* `Analysis.Options.load` — the options of the analysis.
* `Rollout.Settings.load` — the settings of a rollout; the settings for late plies, for the cube and
  for either player each fall back field by field.
-/

namespace Backgammon

open Config

/-- The largest depth that a setting can hold. -/
def EvalSettings.depthLimit : Nat := 255

/-- **How a position is looked at**, from the names `<stem>_plies`, `<stem>_cubeful`,
`<stem>_deterministic` and `<stem>_noise`. -/
def EvalSettings.load (src : Source) (stem : String) (default : EvalSettings Float) :
    Except LoadError (EvalSettings Float) :=
  let depth := ((src.get (stem ++ "_plies")).bind Value.asNatural).map (min · depthLimit)
  let c : EvalSettings Float :=
    { plies := depth.getD default.plies
      cubeful := src.bool (stem ++ "_cubeful") default.cubeful
      deterministic := src.bool (stem ++ "_deterministic") default.deterministic
      noise := src.real (stem ++ "_noise") default.noise }
  checked c c.validate

namespace Analysis

/-- The comparison of a given name, in any case of letters. -/
def Comparison.ofName? (name : String) : Option Comparison :=
  match String.ofList (name.toList.map Char.toLower) with
  | "strict" => some .strict
  | "inclusive" => some .inclusive
  | _ => none

/-- The configured comparison. -/
def Comparison.load (src : Source) : Except LoadError Comparison :=
  match src.get "threshold_comparison" with
  | none => .ok (Options.standard : Options Float).comparison
  | some v =>
    match Comparison.ofName? v.asText with
    | some c => .ok c
    | none => .error (.setting (.invalid "threshold_comparison" (.unknownMode v.asText)))

/-- **The options of the analysis.** -/
def Options.load (src : Source) : Except LoadError (Options Float) := do
  let default : Options Float := .standard
  let comparison ← Comparison.load src
  let options : Options Float :=
    { skill :=
        { doubtful := src.real "skill_doubtful" default.skill.doubtful
          bad := src.real "skill_bad" default.skill.bad
          veryBad := src.real "skill_very_bad" default.skill.veryBad }
      luck :=
        { veryBad := src.real "luck_very_bad" default.luck.veryBad
          bad := src.real "luck_bad" default.luck.bad
          good := src.real "luck_good" default.luck.good
          veryGood := src.real "luck_very_good" default.luck.veryGood }
      comparison := comparison
      closeCube := src.real "close_cube_threshold" default.closeCube
      equityEpsilon := src.real "equity_epsilon" default.equityEpsilon
      ratingOffset := src.real "fibs_rating_offset" default.ratingOffset
      analyseMoves := src.bool "analyse_moves" default.analyseMoves
      analyseCube := src.bool "analyse_cube" default.analyseCube
      analyseDice := src.bool "analyse_dice" default.analyseDice }
  checked options options.validate

end Analysis

namespace Rollout

/-- The stopping rule. -/
def StoppingRule.load (src : Source) : StoppingRule Float :=
  let default : StoppingRule Float := .standard
  { stopOnStd := src.bool "stop_on_std" default.stopOnStd
    stdLimit := src.real "std_limit" default.stdLimit
    minGamesStd := src.natural "min_games_std" default.minGamesStd
    stdMeanFloor := src.real "std_mean_floor" default.stdMeanFloor
    stopOnJsd := src.bool "stop_on_jsd" default.stopOnJsd
    jsdLimit := src.real "jsd_limit" default.jsdLimit
    minGamesJsd := src.natural "min_games_jsd" default.minGamesJsd
    jsdReactivate := src.bool "jsd_reactivate" default.jsdReactivate }

/-- The move filter, the same at every depth. -/
def MoveFilter.load (src : Source) : MoveFilter Float :=
  let default : MoveFilter Float := .standard
  { accept := src.natural "move_filter_accept" default.accept
    extra := src.natural "move_filter_extra" default.extra
    threshold := src.real "move_filter_threshold" default.threshold }

/-- **Settings for either player**, from names within `player_0` and `player_1`. -/
def loadBoth (src : Source) (stem : String) (shared : EvalSettings Float) :
    Except LoadError (PerPlayer (EvalSettings Float)) := do
  let zero ← EvalSettings.load src ("player_0." ++ stem) shared
  let one ← EvalSettings.load src ("player_1." ++ stem) shared
  return ⟨zero, one⟩

/-- **The number of workers**: the environment comes first, and must hold a number. -/
def loadParallelism (src : Source) (default : Nat) : Except LoadError Nat :=
  (Environment.natural? src.environment "ROLLOUT_PARALLELISM").map fun n =>
    n.getD (src.natural "parallelism" default)

/-- **The settings of a rollout.** -/
def Settings.load (src : Source) : Except LoadError (Settings Float) := do
  let default : Settings Float := .standard
  let chequer ← EvalSettings.load src "chequer" default.chequer.zero
  let cube ← EvalSettings.load src "cube" chequer
  let late ← EvalSettings.load src "late" chequer
  let lateCube ← EvalSettings.load src "late_cube" cube
  let parallelism ← loadParallelism src default.parallelism
  let chequerBoth ← loadBoth src "chequer" chequer
  let cubeBoth ← loadBoth src "cube" cube
  let lateBoth ← loadBoth src "late" late
  let lateCubeBoth ← loadBoth src "late_cube" lateCube
  let truncation ← EvalSettings.load src "truncation" chequer
  let settings : Settings Float :=
    { trials := src.natural "trials" default.trials
      batchSize := src.natural "batch_size" default.batchSize
      parallelism := parallelism
      seed := (((src.get "seed").bind Value.asNatural).map UInt64.ofNat).getD default.seed
      rotateDice := src.bool "rotate_dice" default.rotateDice
      antithetic := src.bool "antithetic" default.antithetic
      initialPosition := src.bool "initial_position" default.initialPosition
      cubeful := src.bool "cubeful" default.cubeful
      cubeAtStart := src.bool "cube_at_start" default.cubeAtStart
      chequer := chequerBoth
      cube := cubeBoth
      late := lateBoth
      lateCube := lateCubeBoth
      lateAfter := if src.bool "late_evals" false then some (src.natural "late_after" 5) else none
      varianceReduction := src.bool "variance_reduction" default.varianceReduction
      truncation := truncation
      truncateAt :=
        if src.bool "truncate" false then some (src.natural "truncate_plies" 10) else none
      truncateBearoff := src.bool "truncate_bearoff" default.truncateBearoff
      stopping := StoppingRule.load src
      moveFilters := List.replicate EvalSettings.maxPlies (MoveFilter.load src)
      progressInterval := src.natural "progress_interval_ms" default.progressInterval }
  checked settings settings.validate

end Rollout

end Backgammon
