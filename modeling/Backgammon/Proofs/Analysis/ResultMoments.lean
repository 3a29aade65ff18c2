import Backgammon.Proofs.Analysis.CubeMistakes
import Backgammon.Proofs.Analysis.Results
import Backgammon.Proofs.Rollout.RunningMoments

/-!
# Proofs/Analysis/ResultMoments — results in parts, and the moments of all of them

    part ──record──▸ · ──record──▸ · ──┐
                                       ├──merge──▸ ·      n, Σ x, Σ x²
    part ──record──▸ · ────────────────┘

A summary of results keeps two sums, so that parts can be merged; a rollout keeps running moments.  Over
the same results both come to the same mean and the same variance, however the results have been divided
up.  What the summary takes its variance from is never negative, so the lower bound is there for rounding
alone.

* `ResultParts` — how a summary comes about; `ResultParts.summary_eq` — it holds the sums of all results.
* `ResultSummary.mean?_ofSample`, `variance?_ofSample` — mean and variance from sums are those by the book.
* `summary_agrees_with_moments` — and those of the running moments.
* `Recording.inParts` — the summaries that statistics hold all come about in this way.
-/

namespace Backgammon.Analysis

/-! ## Sums of a sample -/

/-- **The summary of a sample**, all at once. -/
def ResultSummary.ofSample (xs : List Rat) : ResultSummary Rat :=
  ⟨xs.length, xs.sum, (xs.map fun x => x * x).sum⟩

namespace ResultSummary

theorem ofSample_append (xs ys : List Rat) : ofSample (xs ++ ys) = ofSample xs + ofSample ys := by
  have squares : ((xs ++ ys).map fun x => x * x).sum =
      (xs.map fun x => x * x).sum + (ys.map fun x => x * x).sum := by
    rw [List.map_append, List.sum_append]
  exact ResultSummary.ext List.length_append List.sum_append squares

theorem ofSample_concat (xs : List Rat) (x : Rat) : ofSample (xs ++ [x]) = (ofSample xs).push x := by
  have one : ofSample [x] = ⟨1, x, x * x⟩ :=
    ResultSummary.ext rfl List.sum_singleton List.sum_singleton
  rw [ofSample_append, one]
  rfl

variable {xs : List Rat}

theorem mean?_ofSample (xs : List Rat) :
    (ofSample xs).mean? = if 1 ≤ xs.length then some (Sample.mean xs) else none := by
  rcases eq_or_ne xs [] with rfl | some
  · rfl
  have pos : xs.length ≠ 0 := mt List.length_eq_zero_iff.1 some
  have divisible : ((xs.length : Rat) == 0) = false := beq_false_of_ne (Nat.cast_ne_zero.2 pos)
  have divided : (ofSample xs).mean? =
      if ((xs.length : Rat) == 0) = true then none else Option.some (Sample.mean xs) := rfl
  rw [divided, divisible, if_neg Bool.false_ne_true, if_pos (Nat.one_le_iff_ne_zero.2 pos)]

/-- What the variance is taken from, before its lower bound, is the variance by the book. -/
theorem quotient_ofSample (many : 2 ≤ xs.length) :
    ((ofSample xs).sumSq - (ofSample xs).sum * (ofSample xs).sum / (ofSample xs).games) /
      ((ofSample xs).games - 1) = Sample.variance xs := by
  rw [Sample.variance, if_neg (not_lt.2 many), Sample.deviation_eq_sub]
  rfl

/-- **The lower bound of the variance is idle**, since squared deviations are not negative. -/
theorem variance?_ofSample (xs : List Rat) :
    (ofSample xs).variance? = if 2 ≤ xs.length then some (Sample.variance xs) else none := by
  rw [variance?, Scalar.sampleVariance?]
  by_cases many : 2 ≤ xs.length
  · have idle := (Scalar.max_rat 0 _).trans (max_eq_right (Sample.variance_nonneg xs))
    rw [← quotient_ofSample many] at idle ⊢
    rw [if_pos many, if_neg (not_lt.2 many : ¬(ofSample xs).games < 2)]
    exact congrArg some idle
  · rw [if_neg many, if_pos (not_le.1 many : (ofSample xs).games < 2)]

end ResultSummary

/-! ## Results in parts -/

/-- **How a summary of results comes about.** -/
inductive ResultParts (α : Type) where
  /-- No results yet. -/
  | nothing
  /-- One result more. -/
  | record (before : ResultParts α) (x : α)
  /-- Two parts put together. -/
  | merge (first second : ResultParts α)

namespace ResultParts

variable {α : Type}

/-- All results, part by part. -/
def results : ResultParts α → List α
  | nothing => []
  | record before x => before.results ++ [x]
  | merge first second => first.results ++ second.results

/-- **The summary of all parts.** -/
def summary [Scalar α] : ResultParts α → ResultSummary α
  | nothing => .zero
  | record before x => before.summary.push x
  | merge first second => first.summary + second.summary

/-- **A summary holds the sums of all results**, however they were divided up. -/
theorem summary_eq (p : ResultParts Rat) : p.summary = .ofSample p.results := by
  induction p with
  | nothing => rfl
  | record before x ih => rw [summary, results, ih, ResultSummary.ofSample_concat]
  | merge first second ih ih' => rw [summary, results, ih, ih', ResultSummary.ofSample_append]

end ResultParts

/-- **The two variances agree.**  Whatever the parts in which results are summed up, and whatever the
order in which they are merged, the summary of all has the mean and the variance of the running moments
of the same results: a mean from the first result on, a variance from the second.  The lower bound of
the variance changes nothing. -/
theorem summary_agrees_with_moments (p : ResultParts Rat) {vs : List (Equities Rat)} {k : Component}
    (same : (vs.map (·.get k)).Perm p.results) :
    p.summary.games = vs.length ∧
      p.summary.mean? =
        (if 1 ≤ vs.length then some ((Rollout.Moments.ofList vs).mean.get k) else none) ∧
      p.summary.variance? =
        (if 2 ≤ vs.length then some ((Rollout.Moments.ofList vs).variance.get k) else none) ∧
      (2 ≤ vs.length → p.summary.variance? = some
        ((p.summary.sumSq - p.summary.sum * p.summary.sum / p.summary.games) /
          (p.summary.games - 1))) := by
  have length_eq : p.results.length = vs.length := same.length_eq.symm.trans (List.length_map _)
  rw [p.summary_eq, ResultSummary.mean?_ofSample, ResultSummary.variance?_ofSample, length_eq,
    (Rollout.Moments.mean_deviation_ofList vs k).1, Rollout.Moments.get_variance_ofList,
    Sample.mean_perm same, Sample.variance_perm same]
  refine ⟨length_eq, rfl, rfl, fun many => ?_⟩
  rw [ResultSummary.quotient_ofSample (length_eq ▸ many), if_pos many]

/-- Two parts of a session, merged with the later one in front. -/
theorem session_agrees_with_moments :
    let first := (ResultParts.nothing.record (1 : Rat)).record (-4)
    let later := ResultParts.nothing.record (2 : Rat)
    let p := later.merge (.merge .nothing first)
    let vs : List (Equities Rat) := [.splat 1, .splat (-4), .splat 2]
    (vs.map (·.get .cubefulEquity)).Perm p.results ∧
      p.summary.mean? = some ((Rollout.Moments.ofList vs).mean.get .cubefulEquity) ∧
      p.summary.variance? = some ((Rollout.Moments.ofList vs).variance.get .cubefulEquity) ∧
      p.summary.mean? = some (-1 / 3) ∧ p.summary.variance? = some (31 / 3) := by
  intro first later p vs
  have same : (vs.map (·.get .cubefulEquity)).Perm p.results := by decide +kernel
  obtain ⟨-, mean_eq, variance_eq, -⟩ := summary_agrees_with_moments p same
  exact ⟨same, mean_eq, variance_eq, by decide +kernel, by decide +kernel⟩

/-! ## The summaries that statistics hold -/

/-- A summary that came about in parts. -/
def ResultSummary.InParts (r : ResultSummary Rat) : Prop := ∃ p : ResultParts Rat, r = p.summary

namespace ResultSummary

variable {r r' : ResultSummary Rat}

theorem inParts_zero : InParts .zero := ⟨.nothing, rfl⟩

theorem InParts.push (h : r.InParts) (x : Rat) : (r.push x).InParts := by
  obtain ⟨p, rfl⟩ := h
  exact ⟨p.record x, rfl⟩

theorem InParts.add (h : r.InParts) (h' : r'.InParts) : (r + r').InParts := by
  obtain ⟨p, rfl⟩ := h
  obtain ⟨p', rfl⟩ := h'
  exact ⟨p.merge p', rfl⟩

end ResultSummary

/-- **Results in statistics are summed up in parts**, with the luck of their games and without. -/
theorem Recording.inParts (R : Recording Rat) (q : Player) :
    (R.statistics.actualResult.get q).InParts ∧
      (R.statistics.luckAdjustedResult.get q).InParts := by
  induction R with
  | blank =>
    have blank : ((PerPlayer.splat .zero : PerPlayer (ResultSummary Rat)).get q).InParts := by
      rw [PerPlayer.get_splat]
      exact ResultSummary.inParts_zero
    exact ⟨blank, blank⟩
  | merge first second ih ih' =>
    rw [statistics, Statistics.merge, PerPlayer.get_add, PerPlayer.get_add]
    exact ⟨ih.1.add ih'.1, ih.2.add ih'.2⟩
  | record before ctx r ih =>
    rw [statistics]
    have other (no_result : r.isResult = false) :
        ((before.statistics.add ctx r).actualResult.get q).InParts ∧
          ((before.statistics.add ctx r).luckAdjustedResult.get q).InParts := by
      obtain ⟨actual, adjusted, -⟩ := Statistics.results_add ctx before.statistics no_result
      rwa [actual, adjusted]
    cases r with
    | play | cube | luck => exact other rfl
    | result s winner points =>
      rw [Statistics.add, Statistics.addResult, PerPlayer.get_ofFn, PerPlayer.get_ofFn]
      exact ⟨ih.1.push _, ih.2.push _⟩

end Backgammon.Analysis
