import Backgammon.Proofs.Rollout.Batch
import Mathlib.Data.List.Induction
import Mathlib.Data.Option.NAry

/-!
# Proofs/Rollout/Pairing — what the results of one contender add up to

    trials    0 1   2 3   4 5   …
    pairs      0     1     2    …

Without antithetic pairing every credited vector is an observation.  With it, a pair of trials is one
if both of its halves are credited, however many batches lie between them.

* `observations` — the observations that the credits of the first trials amount to.
* `Contender.fed` — a contender that takes its credits in, trial after trial.
* `PairSlot` — what the slot for the unpaired half holds: the even trial before, if it is credited,
  and never one that the next odd trial could be taken for the partner of.
* `Contender.moments_fed` — the moments of a fed contender are those of its observations.
-/

namespace Backgammon.Rollout

variable {α : Type} [Scalar α]

/-- The average of the two halves of an antithetic pair. -/
def pairAverage (v w : Equities α) : Equities α := Equities.zipWith (fun a b => (a + b) / 2) v w

/-- **The observations of a candidate**: what it is credited with for the first trials or, with
antithetic pairing, the averages of the pairs of which it is credited with both halves. -/
def observations (antithetic : Bool) (credit : Nat → Option (Equities α)) (trials : Nat) :
    List (Equities α) :=
  if antithetic then
    (List.range (trials / 2)).filterMap fun k =>
      Option.map₂ pairAverage (credit (2 * k)) (credit (2 * k + 1))
  else (List.range trials).filterMap credit

theorem observations_single (credit : Nat → Option (Equities α)) (n : Nat) :
    observations false credit n = (List.range n).filterMap credit := rfl

theorem observations_pairs (credit : Nat → Option (Equities α)) (n : Nat) :
    observations true credit n = (List.range (n / 2)).filterMap fun k =>
      Option.map₂ pairAverage (credit (2 * k)) (credit (2 * k + 1)) := rfl

theorem observations_succ_single (credit : Nat → Option (Equities α)) (n : Nat) :
    observations false credit (n + 1) = observations false credit n ++ (credit n).toList := by
  rw [observations_single, observations_single, List.range_succ, List.filterMap_append]
  cases h : credit n <;> simp [h]

theorem observations_succ_even {n : Nat} (h : n % 2 = 0) (credit : Nat → Option (Equities α)) :
    observations true credit (n + 1) = observations true credit n := by
  have same : (n + 1) / 2 = n / 2 := by omega
  rw [observations_pairs, observations_pairs, same]

theorem observations_succ_odd {n : Nat} (h : n % 2 = 1) (credit : Nat → Option (Equities α)) :
    observations true credit (n + 1) = observations true credit n ++
      (Option.map₂ pairAverage (credit (n - 1)) (credit n)).toList := by
  have half : (n + 1) / 2 = n / 2 + 1 := by omega
  have first : 2 * (n / 2) = n - 1 := by omega
  have second : n - 1 + 1 = n := by omega
  rw [observations_pairs, observations_pairs, half, List.range_succ, List.filterMap_append]
  cases hp : Option.map₂ pairAverage (credit (n - 1)) (credit n) <;> simp [first, second, hp]

/-- Trials without credit add nothing. -/
theorem observations_eq_of_le {antithetic : Bool} {credit : Nat → Option (Equities α)} {n m : Nat}
    (h : n ≤ m) (none_after : ∀ t, n ≤ t → credit t = none) :
    observations antithetic credit m = observations antithetic credit n := by
  induction m, h using Nat.le_induction with
  | base => rfl
  | succ m hm ih =>
    rw [← ih]
    cases antithetic with
    | false => simp [observations_succ_single, none_after m hm]
    | true =>
      rcases Nat.mod_two_eq_zero_or_one m with h | h
      · exact observations_succ_even h credit
      · simp [observations_succ_odd h, none_after m hm]

namespace Moments

@[simp] theorem count_ofList (vs : List (Equities α)) : (ofList vs).count = vs.length := by
  induction vs using List.reverseRecOn with
  | nil => rfl
  | append_singleton vs v ih => rw [ofList_append_singleton, count_push, ih, List.length_append]; rfl

theorem ofList_append_toList (vs : List (Equities α)) (v : Option (Equities α)) :
    ofList (vs ++ v.toList) = v.elim (ofList vs) (ofList vs).push := by
  cases v with
  | none => rw [Option.toList_none, List.append_nil]; rfl
  | some v => exact ofList_append_singleton vs v

end Moments

namespace Contender

/-- Takes results in, one after the other. -/
def absorbEach (antithetic : Bool) (c : Contender α) (results : List (Nat × Equities α)) :
    Contender α :=
  results.foldl (fun c x => c.absorb antithetic x.1 x.2) c

/-- **A contender that has taken its credits in**, trial after trial. -/
def fed (antithetic : Bool) (credit : Nat → Option (Equities α)) (trials : Nat) : Contender α :=
  absorbEach antithetic fresh (credits credit (List.range trials))

theorem fed_succ (antithetic : Bool) (credit : Nat → Option (Equities α)) (n : Nat) :
    fed antithetic credit (n + 1) =
      (credit n).elim (fed antithetic credit n) ((fed antithetic credit n).absorb antithetic n) := by
  rw [fed, credits, List.range_succ, List.filterMap_append, absorbEach, List.foldl_append]
  cases h : credit n <;> simp [h, fed, absorbEach, credits]

/-- A contender that has been fed takes in the credits of the trials that follow. -/
theorem absorbEach_fed (antithetic : Bool) {credit credit' : Nat → Option (Equities α)} {n : Nat}
    (before : ∀ t < n, credit' t = credit t) (m : Nat) :
    (fed antithetic credit n).absorbEach antithetic (credits credit' (List.range' n m)) =
      fed antithetic credit' (n + m) := by
  have same : credits credit (List.range n) = credits credit' (List.range n) :=
    List.filterMap_congr fun t ht => by rw [before t (List.mem_range.1 ht)]
  have joined : List.range n ++ List.range' n m = List.range (n + m) := by
    simpa [List.range_eq_range'] using List.range'_append_1 (s := 0) (m := n) (n := m)
  rw [fed, same, absorbEach, absorbEach, ← List.foldl_append, credits, credits,
    ← List.filterMap_append, joined]
  rfl

/-! ## One trial after another -/

theorem absorb_even {t : Nat} (h : t % 2 = 0) (c : Contender α) (v : Equities α) :
    c.absorb true t v = { c with unpaired := some (t, v) } := by simp [absorb, h]

/-- A trial that finds its partner waiting. -/
theorem absorb_partner {t : Nat} (h : t % 2 = 1) {c : Contender α} {w : Equities α}
    (slot : c.unpaired = some (t - 1, w)) (v : Equities α) :
    c.absorb true t v =
      { c with moments := c.moments.push (pairAverage w v), unpaired := none } := by
  have next : t - 1 + 1 = t := by omega
  simp [absorb, h, slot, next, pairAverage]

/-- A trial that finds the slot empty, or someone else waiting. -/
theorem absorb_alone {t : Nat} (h : t % 2 = 1) {c : Contender α}
    (slot : ∀ x, c.unpaired = some x → x.1 + 1 ≠ t) (v : Equities α) :
    c.absorb true t v = { c with unpaired := none } := by
  obtain ⟨moments, live, _ | x⟩ := c
  · simp [absorb, h]
  · simp [absorb, h, slot x rfl]

theorem moments_fed_single (credit : Nat → Option (Equities α)) (n : Nat) :
    (fed false credit n).moments = .ofList (observations false credit n) := by
  induction n with
  | zero => rfl
  | succ n ih =>
    rw [fed_succ, observations_succ_single, Moments.ofList_append_toList, ← ih]
    cases credit n <;> rfl

/-- **The slot for the unpaired half** before trial `n`: whatever waits there is a credited even
trial, and the last trial is waiting there if it is one. -/
structure PairSlot (credit : Nat → Option (Equities α)) (n : Nat) (c : Contender α) : Prop where
  credited_even : ∀ t v, c.unpaired = some (t, v) → t % 2 = 0 ∧ credit t = some v
  last : n % 2 = 1 → ∀ v, credit (n - 1) = some v → c.unpaired = some (n - 1, v)

/-- **The moments of the pairs**, with the slot: the step from one trial to the next. -/
theorem fed_pairs (credit : Nat → Option (Equities α)) (n : Nat) :
    (fed true credit n).moments = .ofList (observations true credit n) ∧
      PairSlot credit n (fed true credit n) := by
  induction n with
  | zero => exact ⟨rfl, fun t v h => absurd h (by simp [fed, credits, absorbEach, fresh]),
      fun h => absurd h (by decide)⟩
  | succ n ih =>
    obtain ⟨moments, slot⟩ := ih
    rw [fed_succ]
    rcases Nat.mod_two_eq_zero_or_one n with even | odd
    · rw [observations_succ_even even, ← moments]
      cases hv : credit n with
      | none =>
        refine ⟨rfl, slot.credited_even, fun _ v h => ?_⟩
        rw [Nat.add_sub_cancel, hv] at h
        exact absurd h (by simp)
      | some v =>
        rw [Option.elim_some, absorb_even even]
        refine ⟨rfl, fun t w h => ?_, fun _ w h => ?_⟩
        · obtain ⟨rfl, rfl⟩ := Prod.mk.inj (Option.some.inj h)
          exact ⟨even, hv⟩
        · rw [Nat.add_sub_cancel, hv] at h
          rw [Nat.add_sub_cancel, Option.some.inj h]
    · have no_last : (n + 1) % 2 = 1 → False := by omega
      rw [observations_succ_odd odd, Moments.ofList_append_toList, ← moments]
      cases hv : credit n with
      | none =>
        rw [Option.map₂_none_right]
        exact ⟨rfl, slot.credited_even, fun h => (no_last h).elim⟩
      | some v =>
        rw [Option.elim_some]
        cases hw : credit (n - 1) with
        | some w =>
          rw [absorb_partner odd (slot.last odd w hw)]
          exact ⟨rfl, fun t w h => absurd h (by simp), fun h => (no_last h).elim⟩
        | none =>
          -- whoever waits is credited, so it is not the uncredited trial before this one
          have alone : ∀ x, (fed true credit n).unpaired = some x → x.1 + 1 ≠ n := by
            rintro ⟨t, w⟩ h rfl
            rw [Nat.add_sub_cancel, (slot.credited_even t w h).2] at hw
            exact absurd hw (by simp)
          rw [absorb_alone odd alone, Option.map₂_none_left]
          exact ⟨rfl, fun t w h => absurd h (by simp), fun h => (no_last h).elim⟩

/-- **The moments of a fed contender are those of its observations.** -/
theorem moments_fed (antithetic : Bool) (credit : Nat → Option (Equities α)) (n : Nat) :
    (fed antithetic credit n).moments = .ofList (observations antithetic credit n) := by
  cases antithetic with
  | false => exact moments_fed_single credit n
  | true => exact (fed_pairs credit n).1

end Contender

/-! ## The reports of a batch -/

theorem length_absorbAll (antithetic : Bool) (field : List (Contender α))
    (reports : List (Report α)) : (absorbAll antithetic field reports).length = field.length := by
  simp [absorbAll]

theorem getElem?_absorbAll (antithetic : Bool) (field : List (Contender α))
    (reports : List (Report α)) (i : Nat) :
    (absorbAll antithetic field reports)[i]? =
      field[i]?.map fun c => c.absorbEach antithetic (resultsOf i reports) := by
  rw [absorbAll, List.getElem?_map, List.getElem?_zipIdx, Option.map_map, Nat.zero_add]
  rfl

end Backgammon.Rollout
