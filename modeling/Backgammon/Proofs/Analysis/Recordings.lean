import Backgammon.Proofs.Analysis.Merging

/-!
# Proofs/Analysis/Recordings — how statistics come about

    blank ──record──▸ · ──record──▸ · ──┐
                                        ├──merge──▸ · ──record──▸ ·
    blank ──record──▸ · ────────────────┘

Statistics start blank; records are counted and parts put together, in any succession.  Each record is
judged by the options and the match winning chances of its own moment.

* `Recording` — such a succession as a tree; `Recording.statistics` — what it comes to.
* `Recording.Under` — what holds of the contexts of all its records.
* `Recording.statistics_induction` — what holds of blank statistics and of a single record, and is kept
  by results and by merging, holds of all statistics.
* `Recording.luckOpen` — luck has been told that no result has closed yet; `openLuck_statistics` — else
  none is left over.
-/

namespace Backgammon.Analysis

/-- **How statistics come about.** -/
inductive Recording (α : Type) where
  /-- Nothing recorded yet. -/
  | blank
  /-- One record more, judged in a context of its own. -/
  | record (before : Recording α) (ctx : Context α) (r : Record α)
  /-- Two parts put together. -/
  | merge (first second : Recording α)

namespace Recording

section

variable {α : Type}

/-- Every record was made in a context of the given kind. -/
def Under (allowed : Context α → Prop) : Recording α → Prop
  | blank => True
  | record before ctx _ => before.Under allowed ∧ allowed ctx
  | merge first second => first.Under allowed ∧ second.Under allowed

/-- **Luck is open**: some luck that was counted has not been followed by a result, neither in the part
where it was counted nor after that part was merged. -/
def luckOpen : Recording α → Bool
  | blank => false
  | record before ctx r =>
    (r.isLuck && ctx.options.analyseDice) || (before.luckOpen && !r.isResult)
  | merge first second => first.luckOpen || second.luckOpen

/-- **The statistics of a recording.** -/
def statistics [Scalar α] : Recording α → Statistics α
  | blank => .empty
  | record before ctx r => before.statistics.add ctx r
  | merge first second => first.statistics.merge second.statistics

end

/-- **Induction over a recording.**  A record that is no result adds what it adds to blank statistics, so
only that has to be looked at. -/
theorem statistics_induction {P : Statistics Rat → Prop} {allowed : Context Rat → Prop}
    (blank : P .empty)
    (single : ∀ ctx r, allowed ctx → Record.isResult r = false → P (Statistics.empty.add ctx r))
    (result : ∀ t ctx s winner points, P t → P (Statistics.addResult t ctx s winner points))
    (merge : ∀ t u, P t → P u → P (t.merge u)) (R : Recording Rat) (under : R.Under allowed) :
    P R.statistics := by
  induction R with
  | blank => exact blank
  | merge first second ih ih' => exact merge _ _ (ih under.1) (ih' under.2)
  | record before ctx r ih =>
    have other (no_result : r.isResult = false) : P (before.statistics.add ctx r) := by
      rw [Statistics.add_eq_merge ctx _ no_result]
      exact merge _ _ (ih under.1) (single ctx r under.2 no_result)
    cases r with
    | play => exact other rfl
    | cube => exact other rfl
    | luck => exact other rfl
    | result s winner points => exact result _ ctx s winner points (ih under.1)

/-- **No luck is left over** unless luck is open. -/
theorem openLuck_statistics (R : Recording Rat) (closed : R.luckOpen = false) :
    R.statistics.openLuck = 0 := by
  induction R with
  | blank => rfl
  | merge first second ih ih' =>
    obtain ⟨closed, closed'⟩ := Bool.or_eq_false_iff.1 closed
    rw [statistics, Statistics.merge, ih closed, ih' closed', add_zero]
  | record before ctx r ih =>
    obtain ⟨unlucky, closed⟩ := Bool.or_eq_false_iff.1 closed
    cases r with
    | play s p loss legal =>
      exact (Statistics.openLuck_addPlay ..).trans (ih ((Bool.and_true _).symm.trans closed))
    | cube s p c action =>
      exact (Statistics.openLuck_addCube ..).trans (ih ((Bool.and_true _).symm.trans closed))
    | luck s p amount =>
      have off : ctx.options.analyseDice = false := (Bool.true_and _).symm.trans unlucky
      have ignored : before.statistics.addLuck ctx s p amount = before.statistics := by
        rw [Statistics.addLuck, off, if_neg Bool.false_ne_true]
      exact (congrArg Statistics.openLuck ignored).trans (ih ((Bool.and_true _).symm.trans closed))
    | result s winner points => rfl

end Recording

end Backgammon.Analysis
