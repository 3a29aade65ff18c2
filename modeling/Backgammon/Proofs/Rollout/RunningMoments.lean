import Backgammon.Proofs.Rollout.Pairing
import Backgammon.Proofs.Samples

/-!
# Proofs/Rollout/RunningMoments — running moments are the moments by the book

    results  v₁ ──push──▸ v₂ ──push──▸ ⋯ ──▸ mean, deviation  =  those of the sample v₁, v₂, …

The running mean never sees the sample as a whole, and the running deviation adds up products of
distances from two different means.  After every result both are what two passes over all results so far
would give, so the order of the results does not matter and the variance is never negative.

* `Moments.mean_deviation_ofList` — the induction, result by result.
* `Moments.ofList_eq_batch` — count, mean and variance after results in any order.
-/

namespace Backgammon.Rollout.Moments

variable {vs ws : List (Equities Rat)}

/-- **Mean and deviation by the book**, after every result. -/
theorem mean_deviation_ofList (vs : List (Equities Rat)) (k : Component) :
    (ofList vs).mean.get k = Sample.mean (vs.map (·.get k)) ∧
      (ofList vs).deviation.get k = Sample.deviation (vs.map (·.get k)) := by
  induction vs using List.reverseRecOn with
  | nil => exact ⟨(Equities.get_splat 0 k).trans Sample.mean_nil.symm, Equities.get_splat 0 k⟩
  | append_singleton vs v ih =>
    obtain ⟨mean_eq, deviation_eq⟩ := ih
    have moved : ((ofList vs).push v).mean.get k =
        Sample.mean (vs.map (·.get k) ++ [v.get k]) := by
      rw [get_mean_push, mean_eq, Sample.mean_concat, count_ofList, List.length_map,
        Nat.cast_add_one]
    rw [ofList_append_singleton, List.map_append, List.map_singleton]
    refine ⟨moved, ?_⟩
    rw [get_deviation_push, moved, mean_eq, deviation_eq, Sample.deviation_concat]

theorem get_variance_ofList (vs : List (Equities Rat)) (k : Component) :
    (ofList vs).variance.get k = Sample.variance (vs.map (·.get k)) := by
  rw [variance, Sample.variance, count_ofList, List.length_map]
  split
  · exact Equities.get_splat 0 k
  · rw [Equities.get_map, (mean_deviation_ofList vs k).2]

/-- **Running moments are those by the book**, whatever the order of the results: their number, the mean
of every component, and its sample variance, which is zero only without spread. -/
theorem ofList_eq_batch (perm : ws.Perm vs) :
    (ofList ws).count = vs.length ∧ ∀ k,
      (ofList ws).mean.get k = Sample.mean (vs.map (·.get k)) ∧
      (ofList ws).variance.get k = Sample.variance (vs.map (·.get k)) ∧
      0 ≤ (ofList ws).variance.get k ∧
      ((ofList ws).variance.get k = 0 ↔
        vs.length < 2 ∨ ∀ v ∈ vs, ∀ w ∈ vs, v.get k = w.get k) := by
  refine ⟨(count_ofList ws).trans perm.length_eq, fun k => ?_⟩
  have listed := perm.map (·.get k)
  rw [(mean_deviation_ofList ws k).1, get_variance_ofList, Sample.mean_perm listed,
    Sample.variance_perm listed]
  refine ⟨rfl, rfl, Sample.variance_nonneg _, ?_⟩
  rw [Sample.variance_eq_zero_iff, List.length_map]
  simp only [List.forall_mem_map]

/-- Three results, the last one first. -/
theorem three_results_batch :
    let vs : List (Equities Rat) := [.splat 1, .splat 2, .splat 6]
    vs.reverse.Perm vs ∧ (ofList vs.reverse).count = 3 ∧
      ∀ k, (ofList vs.reverse).mean.get k = 3 ∧ (ofList vs.reverse).variance.get k = 7 := by
  intro vs
  have perm : vs.reverse.Perm vs := List.reverse_perm vs
  obtain ⟨count_eq, moments⟩ := ofList_eq_batch perm
  refine ⟨perm, count_eq, fun k => ?_⟩
  have numbers : vs.map (·.get k) = [1, 2, 6] := by simp [vs]
  obtain ⟨mean_eq, variance_eq, -⟩ := moments k
  rw [mean_eq, variance_eq, numbers]
  decide +kernel

end Backgammon.Rollout.Moments
