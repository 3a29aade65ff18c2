import Backgammon.Analysis.Rating
import Backgammon.Proofs.Analysis.Recordings
import Mathlib.Tactic.Linarith
import Mathlib.Tactic.Ring

/-!
# Proofs/Analysis/Results — what one player wins the other loses, luck or no luck

    luck counted = luck taken off by results + luck still open

Luck is summed up twice, over everything recorded and over the game that is open; a result takes the
second sum off what was won and starts it anew.  What has been taken off so far is the difference of the
two, and the results with and without luck differ by it.

* `ZeroSum` — results that one player won and the other lost.
* `Statistics.luckTaken` — the luck that results have taken off.
* `Statistics.results_add` — a record that is no result leaves results and the luck taken off alone.
* `Statistics.Balanced` — results are zero-sum, and those without luck differ by the luck taken off;
  `Balanced.add`, `Balanced.merge` — records and merging keep that.
* `results_balanced` — it holds of all statistics; with no luck open the results without luck are those
  that the rating without luck starts from.
-/

namespace Backgammon.Analysis

/-! ## Results of the two players -/

/-- **What one player won the other lost.** -/
structure ZeroSum (x : PerPlayer (ResultSummary Rat)) : Prop where
  sum_eq (p : Player) : (x.get p.opponent).sum = -(x.get p).sum
  sumSq_eq (p : Player) : (x.get p.opponent).sumSq = (x.get p).sumSq

theorem zeroSum_zero : ZeroSum (.splat .zero) where
  sum_eq p := by cases p <;> exact neg_zero.symm
  sumSq_eq p := by cases p <;> rfl

theorem ZeroSum.add {x y : PerPlayer (ResultSummary Rat)} (hx : ZeroSum x) (hy : ZeroSum y) :
    ZeroSum (x + y) where
  sum_eq p := by
    rw [PerPlayer.get_add, PerPlayer.get_add]
    calc (x.get p.opponent).sum + (y.get p.opponent).sum
      _ = -(x.get p).sum + -(y.get p).sum := by rw [hx.sum_eq, hy.sum_eq]
      _ = -((x.get p).sum + (y.get p).sum) := (neg_add _ _).symm
  sumSq_eq p := by
    rw [PerPlayer.get_add, PerPlayer.get_add]
    exact congrArg₂ (· + ·) (hx.sumSq_eq p) (hy.sumSq_eq p)

/-- One more result, opposite for the two players. -/
theorem ZeroSum.push {x : PerPlayer (ResultSummary Rat)} (hx : ZeroSum x) {f : Player → Rat}
    (opposite : ∀ p, f p.opponent = -f p) : ZeroSum (.ofFn fun q => (x.get q).push (f q)) where
  sum_eq p := by
    rw [PerPlayer.get_ofFn, PerPlayer.get_ofFn]
    calc (x.get p.opponent).sum + f p.opponent
      _ = -(x.get p).sum + -f p := by rw [hx.sum_eq, opposite]
      _ = -((x.get p).sum + f p) := (neg_add _ _).symm
  sumSq_eq p := by
    rw [PerPlayer.get_ofFn, PerPlayer.get_ofFn]
    calc (x.get p.opponent).sumSq + f p.opponent * f p.opponent
      _ = (x.get p).sumSq + f p * f p := by rw [hx.sumSq_eq, opposite, neg_mul_neg]

/-- **What a player wins by a game**: the winner's gain, or its opposite. -/
def Context.share (ctx : Context Rat) (s : Stakes) (winner : Player) (points : Nat) (p : Player) : Rat :=
  if p = winner then ctx.gain s winner points else -ctx.gain s winner points

theorem Context.share_opponent (ctx : Context Rat) (s : Stakes) (winner : Player) (points : Nat)
    (p : Player) : ctx.share s winner points p.opponent = -ctx.share s winner points p := by
  rw [share, share]
  by_cases won : p = winner
  · rw [if_pos won, if_neg (won ▸ Player.opponent_ne p)]
  · rw [if_neg won, if_pos (Player.opponent_eq_iff.2 won), neg_neg]

/-! ## Luck taken off -/

namespace Statistics

/-- **The luck of a player that results have taken off**, in points or winning chance. -/
def luckTaken (t : Statistics Rat) (p : Player) : Rat :=
  (t.luck.get p).unnormalized - t.openLuck.get p

/-- **Results are zero-sum, and luck is taken off once.** -/
structure Balanced (t : Statistics Rat) : Prop where
  actual : ZeroSum t.actualResult
  adjusted : ZeroSum t.luckAdjustedResult
  luck (p : Player) : (t.luckAdjustedResult.get p).sum =
    (t.actualResult.get p).sum - t.luckTaken p + t.luckTaken p.opponent

theorem luckTaken_empty (p : Player) : luckTaken empty p = 0 := by
  cases p <;> exact sub_self 0

theorem balanced_empty : Balanced empty where
  actual := zeroSum_zero
  adjusted := zeroSum_zero
  luck p := by
    rw [luckTaken_empty, luckTaken_empty, sub_zero, add_zero]
    rfl

variable {t u : Statistics Rat} (ctx : Context Rat) (s : Stakes)

/-- Luck that is counted stays open. -/
theorem luckTaken_addLuck (t : Statistics Rat) (p q : Player) (amount : Rat) :
    (t.addLuck ctx s p amount).luckTaken q = t.luckTaken q := by
  rw [addLuck]
  split
  · cases p <;> cases q <;> first | rfl | exact add_sub_add_right_eq_sub _ _ _
  · rfl

/-- **A result takes off the luck that is open**, its own player's and the opponent's. -/
theorem Balanced.addResult (ht : t.Balanced) (winner : Player) (points : Nat) :
    (t.addResult ctx s winner points).Balanced where
  actual := ht.actual.push (ctx.share_opponent s winner points)
  adjusted := ht.adjusted.push
    (f := fun p => ctx.share s winner points p - t.openLuck.get p + t.openLuck.get p.opponent) <| by
      intro p
      rw [ctx.share_opponent, Player.opponent_opponent]
      ring
  luck p := by
    have luck := ht.luck p
    rw [Statistics.addResult, PerPlayer.get_ofFn, PerPlayer.get_ofFn]
    simp only [luckTaken, ResultSummary.push, PerPlayer.get_splat] at luck ⊢
    linarith

/-- **A record that is no result leaves the results alone**, and so the luck taken off. -/
theorem results_add (t : Statistics Rat) {r : Record Rat} (no_result : r.isResult = false) :
    (t.add ctx r).actualResult = t.actualResult ∧
      (t.add ctx r).luckAdjustedResult = t.luckAdjustedResult ∧
      ∀ q, (t.add ctx r).luckTaken q = t.luckTaken q := by
  cases r with
  | play s p loss legal =>
    rw [Statistics.add, addPlay]
    split
    · exact ⟨rfl, rfl, fun _ => rfl⟩
    · dsimp only
      split <;> exact ⟨rfl, rfl, fun _ => rfl⟩
  | cube s p c action =>
    rw [Statistics.add, addCube]
    split
    · exact ⟨rfl, rfl, fun _ => rfl⟩
    · dsimp only
      split <;> exact ⟨rfl, rfl, fun _ => rfl⟩
  | luck s p amount =>
    have results : (t.addLuck ctx s p amount).actualResult = t.actualResult ∧
        (t.addLuck ctx s p amount).luckAdjustedResult = t.luckAdjustedResult := by
      rw [addLuck]
      split <;> exact ⟨rfl, rfl⟩
    exact ⟨results.1, results.2, fun q => luckTaken_addLuck ctx s t p q amount⟩
  | result => exact Bool.noConfusion no_result

/-- **Every record keeps the balance.** -/
theorem Balanced.add (ht : t.Balanced) (r : Record Rat) : (t.add ctx r).Balanced := by
  have other (no_result : r.isResult = false) : (t.add ctx r).Balanced := by
    obtain ⟨actual, adjusted, taken⟩ := results_add ctx t no_result
    refine ⟨actual ▸ ht.actual, adjusted ▸ ht.adjusted, fun p => ?_⟩
    rw [actual, adjusted, taken, taken]
    exact ht.luck p
  cases r with
  | play | cube | luck => exact other rfl
  | result s winner points => exact ht.addResult ctx s winner points

theorem luckTaken_merge (t u : Statistics Rat) (p : Player) :
    (t.merge u).luckTaken p = t.luckTaken p + u.luckTaken p := by
  rw [luckTaken, Statistics.merge, PerPlayer.get_add, PerPlayer.get_add]
  exact add_sub_add_comm _ _ _ _

theorem Balanced.merge (ht : t.Balanced) (hu : u.Balanced) : (t.merge u).Balanced where
  actual := ht.actual.add hu.actual
  adjusted := ht.adjusted.add hu.adjusted
  luck p := by
    rw [luckTaken_merge, luckTaken_merge, Statistics.merge, PerPlayer.get_add, PerPlayer.get_add]
    calc (t.luckAdjustedResult.get p).sum + (u.luckAdjustedResult.get p).sum
      _ = (t.actualResult.get p).sum - t.luckTaken p + t.luckTaken p.opponent +
          ((u.actualResult.get p).sum - u.luckTaken p + u.luckTaken p.opponent) := by
        rw [ht.luck, hu.luck]
      _ = (t.actualResult.get p).sum + (u.actualResult.get p).sum -
          (t.luckTaken p + u.luckTaken p) + (t.luckTaken p.opponent + u.luckTaken p.opponent) := by
        ring

/-! ## All statistics -/

theorem balanced_statistics (R : Recording Rat) : R.statistics.Balanced := by
  induction R with
  | blank => exact balanced_empty
  | record before ctx r ih => exact ih.add ctx r
  | merge first second ih ih' => exact ih.merge ih'

/-- **What one player wins the other loses**, with luck and without.  With no luck open, the results
without luck are the results less all the luck that was counted, and the rating without luck starts from
them. -/
theorem results_balanced (R : Recording Rat) :
    ZeroSum R.statistics.actualResult ∧ ZeroSum R.statistics.luckAdjustedResult ∧
      (R.luckOpen = false →
        R.statistics.luckAdjustedResult.zero.sum =
          R.statistics.actualResult.zero.sum - R.statistics.luck.zero.unnormalized +
            R.statistics.luck.one.unnormalized ∧
        ∀ [RealFunctions Rat] (matchTo : Nat), R.statistics.luckBasedRating? matchTo =
          relativeRating? (1 / 2 + R.statistics.luckAdjustedResult.zero.sum) matchTo) := by
  have balanced := balanced_statistics R
  refine ⟨balanced.actual, balanced.adjusted, fun closed => ?_⟩
  have taken (p : Player) : R.statistics.luckTaken p = (R.statistics.luck.get p).unnormalized := by
    rw [luckTaken, R.openLuck_statistics closed]
    cases p <;> exact sub_zero _
  have luck := balanced.luck .zero
  rw [taken, taken] at luck
  refine ⟨luck, fun matchTo => congrArg (relativeRating? · matchTo) ?_⟩
  calc 1 / 2 + R.statistics.actualResult.zero.sum - R.statistics.luck.zero.unnormalized +
        R.statistics.luck.one.unnormalized
    _ = 1 / 2 + (R.statistics.actualResult.zero.sum - R.statistics.luck.zero.unnormalized +
        R.statistics.luck.one.unnormalized) := by ring
    _ = 1 / 2 + R.statistics.luckAdjustedResult.zero.sum := congrArg (1 / 2 + ·) luck.symm

/-- A part with luck and a result, another with a result only, and luck closed by one more. -/
theorem money_parts_balanced :
    let ctx : Context Rat := ⟨.standard, ⟨fun _ _ _ => 1 / 2⟩⟩
    let luck (p : Player) (amount : Rat) : Record Rat := .luck (.money p) p amount
    let result (winner : Player) (points : Nat) : Record Rat := .result (.money .zero) winner points
    let first := (Recording.blank.record ctx (luck .zero (1 / 2))).record ctx (result .one 2)
    let second := Recording.blank.record ctx (result .zero 4)
    let R := ((first.merge second).record ctx (luck .one (-1 / 4))).record ctx (result .zero 1)
    R.luckOpen = false ∧ ZeroSum R.statistics.luckAdjustedResult ∧
      R.statistics.luckAdjustedResult.zero.sum =
        R.statistics.actualResult.zero.sum - R.statistics.luck.zero.unnormalized +
          R.statistics.luck.one.unnormalized ∧
      R.statistics.luckAdjustedResult.zero.sum = 9 / 4 := by
  intro ctx luck result first second R
  have closed : R.luckOpen = false := rfl
  obtain ⟨-, adjusted, agree⟩ := results_balanced R
  exact ⟨closed, adjusted, (agree closed).1, by decide +kernel⟩

end Statistics

end Backgammon.Analysis
