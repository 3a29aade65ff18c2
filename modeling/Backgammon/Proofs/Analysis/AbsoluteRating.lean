import Backgammon.Analysis.Rating
import Backgammon.Proofs.Analysis.Counters
import Mathlib.Algebra.Order.Field.Basic
import Mathlib.Algebra.Order.Field.Rat
import Mathlib.Tactic.Linarith
import Mathlib.Tactic.Positivity

/-!
# Proofs/Analysis/AbsoluteRating — a rating falls short of the offset by what errors cost

    rating  =  offset − (chequer errors / choices) · (8798 + 25526/n) − (cube errors / close) · (863 − 519/n)

Both weights are positive, for a match of one point too, and no error has a negative cost.  So the rating
is the offset for a player without errors, and below it for any other.

* `CubeErrors.normalized_total` — the cost of cube errors as a sum over their kinds.
* `RatingCalibration.standard_weights_pos` — the weights of both rates are positive.
* `Context.absoluteRating?_eq_some_iff` — the offset less the two losses, a missing one being none.
* `Statistics.Consistent.losses_nonneg` — losses are not negative, and nothing only without errors.
* `Statistics.Consistent.cubeRatingLoss?_addCube` — an error no cheaper than the average lessens no loss.
* `absoluteRating_spec` — all of this in the statistics of any recording.
-/

namespace Backgammon.Analysis

/-- Over exact numbers a missing quotient may be taken for the quotient by zero. -/
theorem getD_quotient? (a b : Rat) : (Scalar.quotient? a b).getD 0 = a / b := by
  rw [Scalar.quotient?]
  split
  next zero => rw [beq_iff_eq.1 zero, div_zero, Option.getD_none]
  next => rfl

/-! ## The cost of cube errors -/

namespace CubeErrors

variable (c : CubeErrors Rat)

/-- **The cost of all errors is the sum** of what those of each kind cost. -/
theorem normalized_total :
    c.total.normalized = (CubeErrorKind.all.map fun k => (c.get k).cost.normalized).sum := by
  rw [total, List.sum_eq_foldl, List.foldl_map, List.foldl_map]
  exact (List.foldl_hom Amount.normalized fun _ _ => rfl).symm

/-- One more error adds its cost. -/
theorem normalized_total_count (kind : CubeErrorKind) (cost : Amount Rat) :
    (c.count kind cost).total.normalized = c.total.normalized + cost.normalized := by
  rw [normalized_total, normalized_total]
  exact sum_map_count c (·.cost.normalized) (fun _ _ => rfl) kind cost

variable {c} (sound : ∀ k, (c.get k).Sound)
include sound

theorem forall_normalized_nonneg :
    ∀ x ∈ CubeErrorKind.all.map fun k => (c.get k).cost.normalized, 0 ≤ x :=
  List.forall_mem_map.2 fun k _ => (sound k).nonneg

theorem normalized_total_nonneg : 0 ≤ c.total.normalized := by
  rw [normalized_total]
  exact List.sum_nonneg (forall_normalized_nonneg sound)

/-- **Errors cost nothing together** only if those of each kind do. -/
theorem normalized_total_eq_zero_iff :
    c.total.normalized = 0 ↔ ∀ k, (c.get k).cost.normalized = 0 := by
  rw [normalized_total]
  constructor
  · intro none k
    exact List.all_zero_of_le_zero_le_of_sum_eq_zero (forall_normalized_nonneg sound) none
      (List.mem_map_of_mem (mem_all k))
  · exact fun none => List.sum_eq_zero (List.forall_mem_map.2 fun k _ => none k)

end CubeErrors

/-! ## Weights of the rates -/

namespace RatingCalibration

variable {n : Nat}

/-- The rating points that an error per move of one costs. -/
def chequerWeight (k : RatingCalibration Rat) (n : Nat) : Rat := k.chequerBase + k.chequerPerLength / n

/-- The rating points that an error per cube decision of one costs. -/
def cubeWeight (k : RatingCalibration Rat) (n : Nat) : Rat := k.cubeBase + k.cubePerLength / n

/-- **Both rates weigh something** in a match of any length: what is taken off for a short match is less
than the base. -/
theorem standard_weights_pos (pos : 0 < n) :
    0 < chequerWeight .standard n ∧ 0 < cubeWeight .standard n := by
  have long : (1 : Rat) ≤ n := Nat.one_le_cast.2 pos
  have shorter : (519 : Rat) / n ≤ 519 := div_le_self (by norm_num) long
  constructor
  · have longer : (0 : Rat) ≤ 25526 / n := by positivity
    change (0 : Rat) < 8798 + 25526 / n
    linarith
  · change (0 : Rat) < 863 + -519 / n
    rw [neg_div]
    linarith

end RatingCalibration

/-! ## Losses -/

section

variable {total cost weight : Rat} {k : Nat}

theorem getD_map_mul (rate : Option Rat) (weight : Rat) :
    (rate.map (· * weight)).getD 0 = rate.getD 0 * weight := by
  cases rate with
  | none => exact (zero_mul _).symm
  | some rate => rfl

/-- **What is lost** to errors among so many decisions is nothing only if they cost nothing. -/
theorem loss_nonneg (nonneg : 0 ≤ total) (none : k = 0 → total = 0) (pos : 0 < weight) :
    0 ≤ total / k * weight ∧ (total / k * weight = 0 ↔ total = 0) := by
  refine ⟨by positivity, ?_⟩
  rw [mul_eq_zero, or_iff_left pos.ne', div_eq_zero_iff, Nat.cast_eq_zero]
  exact ⟨fun either => either.elim id none, .inl⟩

/-- **An average does not fall** when something is added that is no less. -/
theorem average_le (nonneg : 0 ≤ total) (cost_nonneg : 0 ≤ cost) (above : k ≠ 0 → total / k ≤ cost) :
    total / k ≤ (total + cost) / (k + 1 : Nat) := by
  rcases Nat.eq_zero_or_pos k with rfl | pos
  · rw [Nat.cast_zero, div_zero]
    positivity
  · have k_pos : (0 : Rat) < k := Nat.cast_pos.2 pos
    have next_pos : (0 : Rat) < (k + 1 : Nat) := Nat.cast_pos.2 k.succ_pos
    have share := (div_le_iff₀ k_pos).1 (above pos.ne')
    rw [div_le_div_iff₀ k_pos next_pos, Nat.cast_add_one]
    linarith

end

section

variable {t : Statistics Rat} {p : Player} {n : Nat}

/-- The rating points lost by chequer play; a player without choices has made no errors. -/
theorem Statistics.getD_chequerRatingLoss? (t : Statistics Rat) (p : Player) (pos : 0 < n) :
    (t.chequerRatingLoss? p n).getD 0 =
      (t.checkerError.get p).normalized / t.unforcedMoves.get p *
        RatingCalibration.chequerWeight .standard n := by
  rw [chequerRatingLoss?, if_neg pos.ne']
  exact (getD_map_mul _ _).trans (congrArg (· * _) (getD_quotient? ..))

/-- The rating points lost with the cube. -/
theorem Statistics.getD_cubeRatingLoss? (t : Statistics Rat) (p : Player) (pos : 0 < n) :
    (t.cubeRatingLoss? p n).getD 0 =
      (t.cubeErrors.get p).total.normalized / t.closeCube.get p *
        RatingCalibration.cubeWeight .standard n := by
  rw [cubeRatingLoss?, if_neg pos.ne']
  exact (getD_map_mul _ _).trans (congrArg (· * _) (getD_quotient? ..))

/-- **The rating is the offset less both losses**, if there was something to decide in a match. -/
theorem Context.absoluteRating?_eq_some_iff {ctx : Context Rat} {r : Rat} :
    ctx.absoluteRating? t p n = some r ↔
      (0 < n ∧ (0 < t.unforcedMoves.get p ∨ 0 < t.closeCube.get p)) ∧
        r = ctx.options.ratingOffset - (t.chequerRatingLoss? p n).getD 0 -
          (t.cubeRatingLoss? p n).getD 0 := by
  rw [absoluteRating?]
  split
  next nothing =>
    simp only [Bool.or_eq_true, decide_eq_true_eq, beq_iff_eq] at nothing
    exact ⟨nofun, fun h => by omega⟩
  next something =>
    simp only [Bool.or_eq_true, decide_eq_true_eq, beq_iff_eq] at something
    have pos : 0 < n := by omega
    rw [and_iff_right ⟨pos, by omega⟩, Option.some_inj, Statistics.getD_chequerRatingLoss? t p pos,
      Statistics.getD_cubeRatingLoss? t p pos, sub_sub, ← getD_quotient?, ← getD_quotient?, eq_comm]
    rfl

namespace Statistics

/-- **Neither loss is negative**, and each is nothing only if the errors of its kind cost nothing. -/
theorem Consistent.losses_nonneg (ht : t.Consistent p) (pos : 0 < n) :
    (0 ≤ (t.chequerRatingLoss? p n).getD 0 ∧
      ((t.chequerRatingLoss? p n).getD 0 = 0 ↔ (t.checkerError.get p).normalized = 0)) ∧
    0 ≤ (t.cubeRatingLoss? p n).getD 0 ∧
      ((t.cubeRatingLoss? p n).getD 0 = 0 ↔
        ∀ k, ((t.cubeErrors.get p).get k).cost.normalized = 0) := by
  obtain ⟨chequer_pos, cube_pos⟩ := RatingCalibration.standard_weights_pos pos
  obtain ⟨checkerless, cubeless⟩ := ht.total_eq_zero .normalized
  have missing {a : Rat} {k : Nat} (none : k = 0) : Scalar.quotient? a (k : Rat) = .none :=
    quotient?_eq_none_iff.2 (Nat.cast_eq_zero.2 none)
  rw [getD_chequerRatingLoss? t p pos, getD_cubeRatingLoss? t p pos,
    ← CubeErrors.normalized_total_eq_zero_iff ht.cube_sound]
  exact ⟨loss_nonneg ht.checker_sound.nonneg (fun none => checkerless (missing none)) chequer_pos,
    loss_nonneg (CubeErrors.normalized_total_nonneg ht.cube_sound)
      (fun none => cubeless (missing none)) cube_pos⟩

/-- **What a cube error changes** of what the rating is made of: there is one close decision more, and
one error. -/
theorem addCube_of_countedError? (t : Statistics Rat) (p : Player) {ctx : Context Rat} {s : Stakes}
    {c : CubeLines Rat} {action : CubeAction} {e : CubeError Rat}
    (valid : ctx.options.validate = .ok ()) (counted : ctx.countedError? s c action = some e) :
    (t.addCube ctx s p c action).checkerError = t.checkerError ∧
      (t.addCube ctx s p c action).unforcedMoves = t.unforcedMoves ∧
      (t.addCube ctx s p c action).closeCube.get p = t.closeCube.get p + 1 ∧
      (t.addCube ctx s p c action).cubeErrors.get p =
        (t.cubeErrors.get p).count e.kind (ctx.amount s e.cost) ∧
      0 ≤ e.cost := by
  obtain ⟨v, counted, mistake⟩ := Option.bind_eq_some_iff.1 counted
  have close := isClose_of_mistakeFor (ruling_of_countedVerdict? counted) valid mistake
  have nonneg := (Options.equityEpsilon_nonneg valid).trans (cost_of_mistakeFor mistake).1.le
  rw [addCube, counted]
  dsimp only
  rw [mistake, if_pos close]
  refine ⟨rfl, rfl, ?_, ?_, nonneg⟩
  · exact (PerPlayer.get_update ..).trans (if_pos rfl)
  · exact (PerPlayer.get_update ..).trans (if_pos rfl)

/-- **An error no cheaper than the average never lessens the loss** with the cube. -/
theorem Consistent.cubeRatingLoss?_addCube (ht : t.Consistent p) (pos : 0 < n) {ctx : Context Rat}
    {s : Stakes} {c : CubeLines Rat} {action : CubeAction} {e : CubeError Rat}
    (valid : ctx.options.validate = .ok ()) (counted : ctx.countedError? s c action = some e)
    (costly : ∀ rate, (t.rates p .normalized).cubePerDecision = some rate → rate ≤ e.cost) :
    (t.cubeRatingLoss? p n).getD 0 ≤ ((t.addCube ctx s p c action).cubeRatingLoss? p n).getD 0 := by
  obtain ⟨-, -, close, errors, nonneg⟩ := addCube_of_countedError? t p valid counted
  have total_nonneg := CubeErrors.normalized_total_nonneg ht.cube_sound
  have above (some : t.closeCube.get p ≠ 0) :
      (t.cubeErrors.get p).total.normalized / t.closeCube.get p ≤ e.cost := by
    refine costly _ ?_
    change Scalar.quotient? _ ((t.closeCube.get p : Nat) : Rat) = _
    rw [Scalar.quotient?, if_neg (by simpa using some)]
    rfl
  rw [getD_cubeRatingLoss? _ p pos, getD_cubeRatingLoss? _ p pos, close, errors,
    CubeErrors.normalized_total_count]
  exact mul_le_mul_of_nonneg_right (average_le total_nonneg nonneg above)
    (RatingCalibration.standard_weights_pos pos).2.le

end Statistics

end

/-! ## All recordings -/

/-- The counters of every recording fit together. -/
theorem Recording.consistent (R : Recording Rat)
    (valid : R.Under fun ctx => ctx.options.validate = .ok ()) (p : Player) :
    R.statistics.Consistent p := by
  refine statistics_induction (P := (·.Consistent p)) (Statistics.consistent_empty p) ?_ ?_ ?_ R valid
  · exact fun ctx r valid no_result => Statistics.consistent_single ctx r valid no_result p
  · exact fun t ctx s winner points ht => ht.addResult ctx s winner points
  · exact fun t u => Statistics.Consistent.merge

/-- **The absolute rating is the offset less the two rating losses.**  In a match it is known of a player
who had something to decide.  It is never above the offset, and meets it only without errors.  One more cube
error that costs no less than the average close decision never raises it. -/
theorem absoluteRating_spec (R : Recording Rat)
    (valid : R.Under fun ctx => ctx.options.validate = .ok ()) (ctx : Context Rat) (p : Player)
    (n : Nat) :
    let t := R.statistics
    ((ctx.absoluteRating? t p n).isSome = true ↔
      0 < n ∧ (0 < t.unforcedMoves.get p ∨ 0 < t.closeCube.get p)) ∧
    ∀ r, ctx.absoluteRating? t p n = some r →
      r = ctx.options.ratingOffset - (t.chequerRatingLoss? p n).getD 0 -
        (t.cubeRatingLoss? p n).getD 0 ∧
      r ≤ ctx.options.ratingOffset ∧
      (r = ctx.options.ratingOffset ↔ (t.checkerError.get p).normalized = 0 ∧
        ∀ k, ((t.cubeErrors.get p).get k).cost.normalized = 0) ∧
      ∀ (ctx' : Context Rat) (s : Stakes) (c : CubeLines Rat) (action : CubeAction)
        (e : CubeError Rat), ctx'.options.validate = .ok () →
        ctx'.countedError? s c action = some e →
        (∀ rate, (t.rates p .normalized).cubePerDecision = some rate → rate ≤ e.cost) →
        ∃ r', ctx.absoluteRating? (R.record ctx' (.cube s p c action)).statistics p n = some r' ∧
          r' ≤ r := by
  intro t
  have consistent : t.Consistent p := R.consistent valid p
  refine ⟨?_, fun r rated => ?_⟩
  · rw [Option.isSome_iff_exists]
    simp only [Context.absoluteRating?_eq_some_iff, exists_and_left, exists_eq, and_true]
  obtain ⟨⟨pos, decided⟩, rating⟩ := Context.absoluteRating?_eq_some_iff.1 rated
  obtain ⟨⟨chequer_nonneg, chequer_zero⟩, cube_nonneg, cube_zero⟩ := consistent.losses_nonneg pos
  refine ⟨rating, by linarith, ?_, ?_⟩
  · rw [← chequer_zero, ← cube_zero]
    refine ⟨fun full => ⟨by linarith, by linarith⟩, fun ⟨chequer, cube⟩ => ?_⟩
    rw [rating, chequer, cube, sub_zero, sub_zero]
  · intro ctx' s c action e valid' counted costly
    obtain ⟨errors, choices, close, -, -⟩ := t.addCube_of_countedError? p valid' counted
    have cube := consistent.cubeRatingLoss?_addCube pos valid' counted costly
    have chequer : ((t.addCube ctx' s p c action).chequerRatingLoss? p n).getD 0 =
        (t.chequerRatingLoss? p n).getD 0 := by
      rw [Statistics.getD_chequerRatingLoss? _ p pos, Statistics.getD_chequerRatingLoss? _ p pos,
        errors, choices]
    refine ⟨_, Context.absoluteRating?_eq_some_iff.2 ⟨⟨pos, .inr ?_⟩, rfl⟩, ?_⟩
    · exact close.symm ▸ Nat.succ_pos _
    · rw [rating]
      change _ - ((t.addCube ctx' s p c action).chequerRatingLoss? p n).getD 0 -
        ((t.addCube ctx' s p c action).cubeRatingLoss? p n).getD 0 ≤ _
      rw [chequer]
      linarith

/-- A play with a loss and a missed double, rated for a match of one point, and then a second double missed
that cost more. -/
theorem missedDoubles_rated :
    let ctx : Context Rat := ⟨.standard, ⟨fun _ _ _ => 1 / 2⟩⟩
    let lines (noDouble : Rat) : CubeLines Rat := ⟨noDouble, 6 / 5, 1, none, 1 / 5, .rolledOut⟩
    let missed (noDouble : Rat) : Record Rat := .cube (.money .zero) .zero (lines noDouble) .noDouble
    let R := (Recording.blank.record ctx (.play (.money .zero) .zero (some (1 / 20)) 3)).record ctx
      (missed (1 / 2))
    R.Under (fun ctx => ctx.options.validate = .ok ()) ∧
      ctx.absoluteRating? R.statistics .zero 1 = some (809 / 5) ∧
      (809 / 5 : Rat) = 2050 - (R.statistics.chequerRatingLoss? .zero 1).getD 0 -
        (R.statistics.cubeRatingLoss? .zero 1).getD 0 ∧
      ∃ r', ctx.absoluteRating? (R.record ctx (missed (1 / 4))).statistics .zero 1 = some r' ∧
        r' ≤ 809 / 5 := by
  intro ctx lines missed R
  have valid : ctx.options.validate = .ok () := by decide +kernel
  have under : R.Under fun ctx => ctx.options.validate = .ok () := ⟨⟨trivial, valid⟩, valid⟩
  have rated : ctx.absoluteRating? R.statistics .zero 1 = some (809 / 5) := by decide +kernel
  obtain ⟨equation, -, -, again⟩ := (absoluteRating_spec R under ctx .zero 1).2 _ rated
  have counted : ctx.countedError? (.money .zero) (lines (1 / 4)) .noDouble =
      some ⟨.missedDoubleAboveCash, 3 / 4⟩ := by
    decide +kernel
  have average : (R.statistics.rates .zero .normalized).cubePerDecision = some (1 / 2) := by
    decide +kernel
  refine ⟨under, rated, equation, again ctx _ _ _ _ valid counted fun rate known => ?_⟩
  rw [average] at known
  obtain rfl := Option.some.inj known
  decide +kernel

end Backgammon.Analysis
