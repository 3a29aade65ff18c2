import Backgammon.Proofs.Checks
import Backgammon.Proofs.Doubles.Zeros
import Backgammon.Proofs.Rollout.Elimination

/-!
# Proofs/Rollout/ZeroVariance — one and the same result, again and again

A contender whose results are all the same has a standard error of zero, and should be settled whatever
the limit.  It is, in doubles as well, with one exception: the standard error is taken relative to the
mean unless that lies below a floor, and the floor may be zero.  A mean of zero does not lie below it,
zero by zero is not a number, and the rule waits for ever.

                 no floor     floor
    mean = 0      waits      settled
    mean ≠ 0     settled     settled

* `Moments.beq_of_const` — the mean and the deviation of equal results.
* `StoppingRule.settled_iff_of_const` — when a number that never changes is settled.
* `StoppingRule.Steady` — a contender whose results are all the same in the numbers that count.
* `StoppingRule.check_steady_iff` — when a rule stops a run over such contenders.
* `StoppingRule.check_zeros_goes_on` — a run of zeros that it does not stop.
-/

namespace Backgammon.Rollout

open Doubles

variable {x : Float} {o key : Component} {vs : List (Equities Float)} {r : StoppingRule Float}

/-! ## Moments of equal results -/

namespace Moments

theorem mean_push (a : Moments Float) (v : Equities Float) (o : Component) :
    (a.push v).mean.get o =
      a.mean.get o + (v.get o - a.mean.get o) / Float.ofNat (a.count + 1) :=
  get_mean_push a v o

theorem get_empty (o : Component) :
    (empty : Moments Float).mean.get o = 0 ∧ (empty : Moments Float).deviation.get o = 0 :=
  ⟨Equities.get_splat 0 o, Equities.get_splat 0 o⟩

/-- The mean and the deviation of nothing but one number: that number, and zero. -/
theorem beq_of_const (finite : x.isFinite = true) (const : ∀ v ∈ vs, v.get o == x) :
    (vs ≠ [] → (ofList vs).mean.get o == x) ∧ (ofList vs).deviation.get o == 0 := by
  induction vs using List.reverseRecOn with
  | nil =>
    refine ⟨fun some => absurd rfl some, ?_⟩
    rw [ofList, List.foldl_nil, (get_empty o).2]
    rfl
  | append_singleton vs v ih =>
    obtain ⟨mean_eq, deviation_eq⟩ := ih fun w hw => const w (List.mem_append_left _ hw)
    have value : v.get o == x := const v (by simp)
    have finite_value := isFinite_of_beq finite value
    -- the first result sets the mean, and all others leave it
    have step : (ofList vs).mean.get o + (v.get o - (ofList vs).mean.get o) /
          Float.ofNat ((ofList vs).count + 1) == x ∧
        (v.get o - (ofList vs).mean.get o).isFinite = true := by
      rcases vs.eq_nil_or_concat with rfl | ⟨_, _, rfl⟩
      · rw [ofList, List.foldl_nil, (get_empty o).1, sub_zero]
        have one : Float.ofNat ((empty : Moments Float).count + 1) = 1 := rfl
        rw [one, div_one]
        exact ⟨PartialEquivBEq.trans (zero_add_beq finite_value) value, finite_value⟩
      · replace mean_eq := mean_eq (by simp)
        have before := sub_beq_zero finite value mean_eq
        exact ⟨add_beq finite mean_eq (div_ofNat_beq_zero before (Nat.succ_pos _)),
          isFinite_of_beq (by rfl) before⟩
    rw [ofList_append_singleton, mean_push, get_deviation_push, mean_push]
    exact ⟨fun _ => step.1, add_beq_zero deviation_eq
      (mul_beq_zero step.2 (sub_beq_zero finite value step.1))⟩

/-- **Equal results have no standard error.** -/
theorem stdError_beq_zero {a : Moments Float} (h : a.deviation.get o == 0) :
    a.stdError.get o == 0 := by
  have zero : (0 : Float) == 0 := by rfl
  rw [stdError]
  split
  · rwa [Equities.zero, Equities.get_splat]
  next some =>
    have variance_eq : a.variance.get o == 0 := by
      rw [variance]
      split
      · rwa [Equities.zero, Equities.get_splat]
      · rw [Equities.get_map]
        exact div_ofNat_sub_one_beq_zero h (by omega)
    rw [Equities.get_map]
    exact sqrt_beq_zero (div_ofNat_beq_zero variance_eq (Nat.pos_of_ne_zero some))

end Moments

/-! ## The rule -/

namespace StoppingRule

/-- The limit of an allowed rule is a number from zero up. -/
theorem zero_le_stdLimit (valid : r.validate = .ok ()) : 0 ≤ r.stdLimit := by
  obtain ⟨number, not_lt, -⟩ := isNumber_of_checkRange (passed_of_bind valid).1
  exact zero_le_of_not_lt number not_lt

/-- **A number that never changes is settled** unless it is zero and there is no floor. -/
theorem settled_iff_of_const (valid : r.validate = .ok ()) (finite : x.isFinite = true)
    (some : vs ≠ []) (const : ∀ v ∈ vs, v.get o == x) :
    r.settled (.ofList vs) o = true ↔ 0 < r.stdMeanFloor ∨ ¬x == 0 := by
  obtain ⟨mean_eq, deviation_eq⟩ := Moments.beq_of_const finite const
  replace mean_eq := mean_eq some
  have error_eq := Moments.stdError_beq_zero deviation_eq
  have limit := zero_le_stdLimit valid
  rw [settled]
  generalize (Moments.ofList vs).mean.get o = mean at *
  generalize (Moments.ofList vs).stdError.get o = error at *
  change (if mean.abs < r.stdMeanFloor then decide (error ≤ r.stdLimit)
    else decide (error / mean.abs ≤ r.stdLimit)) = true ↔ _
  by_cases zero : x == 0
  · have magnitude : mean.abs == 0 := abs_beq_zero (PartialEquivBEq.trans mean_eq zero)
    have near : mean.abs < r.stdMeanFloor ↔ 0 < r.stdMeanFloor := lt_iff_of_beq_zero magnitude
    by_cases floor : 0 < r.stdMeanFloor
    · rw [if_pos (near.2 floor)]
      exact iff_of_true (decide_eq_true ((le_iff_of_beq_zero error_eq).2 limit)) (.inl floor)
    · rw [if_neg (mt near.1 floor)]
      refine iff_of_false ?_ (not_or.2 ⟨floor, not_not.2 zero⟩)
      exact fun settled => not_div_le error_eq magnitude _ (of_decide_eq_true settled)
  · obtain rfl := eq_of_beq mean_eq zero
    refine iff_of_true ?_ (.inr zero)
    split
    · exact decide_eq_true ((le_iff_of_beq_zero error_eq).2 limit)
    · exact decide_eq_true ((le_iff_of_beq_zero (div_abs_beq_zero error_eq finite zero)).2 limit)

/-- **A contender whose results are all the same** in the two numbers that count: finite, and often
enough for the rule. -/
structure Steady (r : StoppingRule Float) (key : Component) (value : Component → Float)
    (d : Contender Float) : Prop where
  finite : ∀ o, o = .cubelessEquity ∨ o = key → (value o).isFinite = true
  history : ∃ vs, d.moments = .ofList vs ∧ max 1 r.minGamesStd ≤ vs.length ∧
    ∀ o, o = .cubelessEquity ∨ o = key → ∀ v ∈ vs, v.get o == value o

theorem Steady.settled_iff {value : Component → Float} {d : Contender Float}
    (steady : r.Steady key value d) (valid : r.validate = .ok ()) :
    (decide (r.minGamesStd ≤ d.moments.count) && r.settled d.moments .cubelessEquity &&
      r.settled d.moments key) = true ↔
      0 < r.stdMeanFloor ∨ ¬value .cubelessEquity == 0 ∧ ¬value key == 0 := by
  obtain ⟨finite, vs, moments, enough, const⟩ := steady
  have some : vs ≠ [] := List.length_pos_iff.1 (by omega)
  have often : r.minGamesStd ≤ vs.length := by omega
  rw [moments, Moments.count_ofList, Bool.and_eq_true, Bool.and_eq_true, decide_eq_true_iff,
    settled_iff_of_const valid (finite _ (.inl rfl)) some (const _ (.inl rfl)),
    settled_iff_of_const valid (finite _ (.inr rfl)) some (const _ (.inr rfl)), or_and_left]
  simp only [often, true_and]

/-- **When a rule stops a run over contenders whose results are all the same**: always if the rule has
a floor, and otherwise if none of their numbers is zero. -/
theorem check_steady_iff (valid : r.validate = .ok ()) (on : r.stopOnStd = true)
    (off : r.stopOnJsd = false) {field : List (Contender Float)}
    (value : Contender Float → Component → Float)
    (steady : ∀ d ∈ field, d.live = true → r.Steady key (value d) d) :
    r.check key field = (field, some .stdLimit) ↔ 0 < r.stdMeanFloor ∨
      ∀ d ∈ field, d.live = true → ¬value d .cubelessEquity == 0 ∧ ¬value d key == 0 := by
  have all_settled : r.allSettled key field = true ↔ 0 < r.stdMeanFloor ∨
      ∀ d ∈ field, d.live = true → ¬value d .cubelessEquity == 0 ∧ ¬value d key == 0 := by
    rw [allSettled, List.all_eq_true]
    constructor
    · intro all
      refine or_iff_not_imp_left.2 fun no_floor d hd live => ?_
      exact (((steady d hd live).settled_iff valid).1
        (all d (List.mem_filter.2 ⟨hd, live⟩))).resolve_left no_floor
    · intro h d hd
      obtain ⟨hd, live⟩ := List.mem_filter.1 hd
      exact ((steady d hd live).settled_iff valid).2 (h.imp_right fun all => all d hd live)
  rw [← all_settled]
  simp [check, on, off]

/-- Two results of one half each. -/
def halves : Contender Float := ⟨.ofList [.splat 0.5, .splat 0.5], true, none⟩

/-- Two results of zero. -/
def nothings : Contender Float := ⟨.ofList [.zero, .zero], true, none⟩

/-- Standard errors relative to the mean, whatever that is. -/
def floorless : StoppingRule Float :=
  { standard with stopOnStd := true, minGamesStd := 2, stdMeanFloor := 0 }

theorem steady_halves : floorless.Steady .cubefulEquity (fun _ => 0.5) halves where
  finite _ _ := by rfl
  history := by
    refine ⟨_, rfl, by decide, fun o _ v hv => ?_⟩
    obtain rfl : v = .splat 0.5 := by simpa using hv
    rw [Equities.get_splat]
    rfl

theorem steady_nothings : floorless.Steady .cubefulEquity (fun _ => 0) nothings where
  finite _ _ := by rfl
  history := by
    refine ⟨_, rfl, by decide, fun o _ v hv => ?_⟩
    obtain rfl : v = .zero := by simpa using hv
    rw [Equities.zero, Equities.get_splat]
    rfl

/-- Results that are all the same and not zero are settled even without a floor. -/
theorem check_halves_stops :
    floorless.check .cubefulEquity [halves] = ([halves], some .stdLimit) := by
  have steady : ∀ d ∈ [halves], d.live = true → floorless.Steady .cubefulEquity (fun _ => 0.5) d := by
    intro d hd _
    rw [List.mem_singleton.1 hd]
    exact steady_halves
  have nonzero : ¬(0.5 : Float) == 0 := by decide +kernel
  exact (check_steady_iff (by decide +kernel) rfl rfl (fun _ _ => 0.5) steady).2
    (.inr fun _ _ _ => ⟨nonzero, nonzero⟩)

/-- **A rule that never stops a run of zeros**, for all that its contenders have no variance. -/
theorem check_zeros_goes_on :
    floorless.validate = .ok () ∧ floorless.stopOnStd = true ∧ floorless.stopOnJsd = false ∧
    nothings.live = true ∧ floorless.Steady .cubefulEquity (fun _ => 0) nothings ∧
    floorless.check .cubefulEquity [nothings] = ([nothings], none) :=
  ⟨by decide +kernel, rfl, rfl, rfl, steady_nothings, by decide +kernel⟩

end StoppingRule

end Backgammon.Rollout
