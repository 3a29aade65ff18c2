import Backgammon.Proofs.Rollout.Accounting
import Backgammon.Proofs.Rollout.Trace
import Mathlib.Data.List.Forall2

/-!
# Proofs/Rollout/Snapshots — what the caller is shown

    shot ≤ shot ≤ ⋯ ≤ shot ≤ last        last ═══ result

A run reports now and then how its candidates stand, and once more when it is over.  No candidate ever
falls back behind an earlier report, and the last report is the result.

* `counts` — the observations of every contender; no batch takes any away.
* `Snapshot.UpTo` — no candidate has more trials in one snapshot than in another.
* `Shows.pairwise_upTo` — snapshots that are shown in turn go up.
* `snapshots_tell` — the snapshots of every run that has a result.
-/

namespace Backgammon.Rollout

variable {σ α : Type}

/-- **The observations of every contender.** -/
def counts (field : List (Contender α)) : List Nat := field.map (·.moments.count)

/-- **No candidate has more trials** in the first snapshot than in the second. -/
def Snapshot.UpTo (shot shot' : Snapshot α) : Prop :=
  List.Forall₂ (fun p p' => p.trials ≤ p'.trials) shot.candidates shot'.candidates

/-- A candidate of a snapshot stands as it does in the result. -/
structure CandidateProgress.IsFinal (p : CandidateProgress α) (x : CandidateResult α) : Prop where
  trials_eq : p.trials = x.trials
  mean_eq : p.mean = x.mean
  stdError_eq : p.stdError = x.stdError
  live_eq : p.live = !x.eliminated

theorem forall₂_le_trans {l l' l'' : List Nat} (h : List.Forall₂ (· ≤ ·) l l')
    (h' : List.Forall₂ (· ≤ ·) l' l'') : List.Forall₂ (· ≤ ·) l l'' := by
  induction h generalizing l'' with
  | nil => exact h'
  | cons hab _ ih =>
    obtain ⟨c, rest, hbc, hrest, rfl⟩ := List.forall₂_cons_left_iff.1 h'
    exact .cons (hab.trans hbc) (ih hrest)

variable [Scalar α]

/-! ## Nothing is taken away -/

theorem Contender.count_le_absorb (antithetic : Bool) (c : Contender α) (t : Nat) (v : Equities α) :
    c.moments.count ≤ (c.absorb antithetic t v).moments.count := by
  obtain ⟨moments, live, _ | ⟨first, w⟩⟩ := c
  all_goals
    simp only [absorb]
    split
    · exact Nat.le_succ _
    · split
      · exact Nat.le_refl _
      · first
        | exact Nat.le_refl _
        | dsimp only
          split
          · exact Nat.le_succ _
          · exact Nat.le_refl _

theorem Contender.count_le_absorbEach (antithetic : Bool) (c : Contender α)
    (results : List (Nat × Equities α)) :
    c.moments.count ≤ (c.absorbEach antithetic results).moments.count := by
  induction results generalizing c with
  | nil => exact Nat.le_refl _
  | cons x results ih => exact (c.count_le_absorb antithetic x.1 x.2).trans (ih _)

theorem counts_le_absorbAll (antithetic : Bool) (field : List (Contender α))
    (reports : List (Report α)) :
    List.Forall₂ (· ≤ ·) (counts field) (counts (absorbAll antithetic field reports)) := by
  have before : counts field = field.zipIdx.map fun x => x.1.moments.count := by
    conv_lhs => rw [counts, ← List.zipIdx_map_fst 0 field, List.map_map]
    rfl
  rw [before, counts, absorbAll, List.map_map, List.forall₂_map_left_iff,
    List.forall₂_map_right_iff, List.forall₂_same]
  exact fun x _ => x.1.count_le_absorbEach antithetic (resultsOf x.2 reports)

variable [RealFunctions α]

theorem counts_check (r : StoppingRule α) (key : Component) (field : List (Contender α)) :
    counts (r.check key field).1 = counts field := by
  have same := congrArg counts (r.map_revived_check key field)
  rwa [counts, counts, List.map_map, List.map_map] at same

variable {c : Settings α} {crew : Crew (StateM σ) α} {candidates : Nat}
  {batches : List (List (Report α))} {shots : List (Snapshot α)}

theorem counts_le_contendersAfter_concat (c : Settings α) (candidates : Nat)
    (batches : List (List (Report α))) (reports : List (Report α)) :
    List.Forall₂ (· ≤ ·) (counts (c.contendersAfter candidates batches))
      (counts (c.contendersAfter candidates (batches ++ [reports]))) := by
  rw [Settings.contendersAfter_concat, counts_check]
  exact counts_le_absorbAll ..

theorem length_contendersAfter (c : Settings α) (candidates : Nat)
    (batches : List (List (Report α))) :
    (c.contendersAfter candidates batches).length = candidates := by
  induction batches using List.reverseRecOn with
  | nil => exact List.length_replicate
  | append_singleton batches reports ih =>
    have kept := (counts_le_contendersAfter_concat c candidates batches reports).length_eq
    rw [counts, counts, List.length_map, List.length_map] at kept
    exact kept.symm.trans ih

/-! ## Snapshots go up -/

/-- A snapshot before another, by the observations behind them. -/
theorem upTo_snapshot (antithetic : Bool) {finished finished' : Bool}
    {field field' : List (Contender α)} (h : List.Forall₂ (· ≤ ·) (counts field) (counts field')) :
    (snapshot antithetic finished field).UpTo (snapshot antithetic finished' field') := by
  rw [counts, counts, List.forall₂_map_left_iff, List.forall₂_map_right_iff] at h
  rw [Snapshot.UpTo, snapshot, snapshot, List.forall₂_map_left_iff, List.forall₂_map_right_iff]
  refine h.imp fun a b le => ?_
  cases antithetic with
  | false => exact le
  | true => exact Nat.mul_le_mul_right 2 le

/-- The contenders behind snapshots that are shown: each has as many observations later on. -/
theorem Shows.exists_field (h : Shows c candidates batches shots) :
    ∀ shot ∈ shots, ∃ field : List (Contender α), shot = snapshot c.antithetic false field ∧
      List.Forall₂ (· ≤ ·) (counts field) (counts (c.contendersAfter candidates batches)) := by
  have later {batches : List (List (Report α))} (reports : List (Report α)) {shot : Snapshot α}
      (h : ∃ field : List (Contender α), shot = snapshot c.antithetic false field ∧
        List.Forall₂ (· ≤ ·) (counts field) (counts (c.contendersAfter candidates batches))) :
      ∃ field : List (Contender α), shot = snapshot c.antithetic false field ∧
        List.Forall₂ (· ≤ ·) (counts field)
          (counts (c.contendersAfter candidates (batches ++ [reports]))) := by
    obtain ⟨field, eq, le⟩ := h
    exact ⟨field, eq, forall₂_le_trans le (counts_le_contendersAfter_concat ..)⟩
  induction h with
  | start => exact nofun
  | shown _ reports ih =>
    refine List.forall_mem_append.2 ⟨fun shot hs => later reports (ih shot hs), ?_⟩
    exact List.forall_mem_singleton.2 ⟨_, rfl, List.forall₂_refl _⟩
  | silent _ reports _ ih => exact fun shot hs => later reports (ih shot hs)

/-- **Snapshots that are shown in turn go up.** -/
theorem Shows.pairwise_upTo (h : Shows c candidates batches shots) :
    shots.Pairwise Snapshot.UpTo := by
  induction h with
  | start => exact .nil
  | silent _ _ _ ih => exact ih
  | shown before reports ih =>
    refine List.pairwise_append.2 ⟨ih, List.pairwise_singleton .., fun shot hs => ?_⟩
    obtain ⟨field, rfl, le⟩ := before.exists_field shot hs
    exact List.forall_mem_singleton.2
      (upTo_snapshot _ (forall₂_le_trans le (counts_le_contendersAfter_concat ..)))

/-! ## The snapshots of a run -/

/-- The observations at the end of a run are no fewer than after its whole batches. -/
theorem Closed.counts_le {events : List (Event α)} {r : Run α} {cut : Option (List (Report α))}
    {field : List (Contender α)} {status : Status}
    (h : Closed c candidates events r batches cut field status shots) :
    List.Forall₂ (· ≤ ·) (counts (c.contendersAfter candidates batches)) (counts field) := by
  rw [h.field_eq]
  cases cut with
  | none => exact List.forall₂_refl _
  | some reports => exact counts_le_absorbAll ..

/-- **Snapshots tell the truth.**  A run that has a result shows the caller unfinished snapshots and then
a finished one, which is the result.  Each has an entry for every candidate, and no candidate has more
trials in it than in a later one.  When no time need pass between two reports, the unfinished ones are
as many as the batches that were played to their end, and each shows the contenders right after the
check of its batch. -/
theorem snapshots_tell {s : σ} {result : Result α}
    (ok : ((run c crew candidates).run s).1.ending = .ok result) :
    let snapshots := ((run c crew candidates).run s).1.snapshots
    shown (trace c crew candidates s) = snapshots ∧
      ∃ unfinished last, snapshots = unfinished ++ [last] ∧
        (∀ shot ∈ unfinished, shot.finished = false) ∧ last.finished = true ∧
        List.Forall₂ CandidateProgress.IsFinal last.candidates result.candidates ∧
        (∀ shot ∈ snapshots, shot.candidates.length = candidates) ∧
        snapshots.Pairwise Snapshot.UpTo ∧
        (c.progressInterval = 0 →
          let done := (played (trace c crew candidates s)).filter whole
          unfinished = (List.range done.length).map fun k =>
            snapshot c.antithetic false (c.contendersAfter candidates (done.take (k + 1)))) := by
  intro snapshots
  obtain ⟨batches, cut, field, status, shots, closed, rfl⟩ := closed_of_ending ok
  have snapshots_eq : snapshots = shots ++ [snapshot c.antithetic true field] := closed.snapshots_eq
  have upTo_last : ∀ shot ∈ shots, shot.UpTo (snapshot c.antithetic true field) := by
    intro shot hs
    obtain ⟨_, rfl, le⟩ := closed.shows.exists_field shot hs
    exact upTo_snapshot _ (forall₂_le_trans le closed.counts_le)
  have length_last : (snapshot c.antithetic true field).candidates.length = candidates := by
    have kept := closed.counts_le.length_eq
    rw [counts, counts, List.length_map, List.length_map, length_contendersAfter] at kept
    rw [snapshot, List.length_map, kept]
  refine ⟨closed.shown_eq, shots, _, snapshots_eq, closed.shows.unfinished, rfl, ?_, ?_, ?_, ?_⟩
  · rw [snapshot, List.forall₂_map_left_iff, List.forall₂_map_right_iff, List.forall₂_same]
    exact fun x _ => ⟨rfl, rfl, rfl, (Bool.not_not x.live).symm⟩
  · rw [snapshots_eq]
    refine List.forall_mem_append.2 ⟨fun shot hs => ?_, List.forall_mem_singleton.2 length_last⟩
    exact (upTo_last shot hs).length_eq.trans length_last
  · rw [snapshots_eq]
    exact List.pairwise_append.2 ⟨closed.shows.pairwise_upTo, List.pairwise_singleton ..,
      fun shot hs => List.forall_mem_singleton.2 (upTo_last shot hs)⟩
  · intro every done
    rw [show done = batches from closed.filter_whole]
    exact closed.shows.eq_map every

/-! ### A caller who leaves early -/

/-- A crew whose batches are played in order, for a caller who leaves after so many of them. -/
def Crew.leaving (batches : Nat) (play : Outcomes α) : Crew (StateM Unit) α :=
  { Crew.inOrder play with cancelled := fun batch => pure (decide (batches ≤ batch)) }

omit [Scalar α] [RealFunctions α] in
theorem Crew.playedBy_leaving {workers : Nat} (h : 0 < workers) (batches : Nat) (play : Outcomes α) :
    (Crew.leaving batches play).PlayedBy workers play := fun _ tasks _ => .inOrder h play tasks

/-- Six trials in two batches, with a report after each. -/
def twoReports : Settings Rat := oddBatches.paced 3 4 0

open Exact in
/-- A caller who leaves after the first of two batches is shown it, and then the result. -/
theorem twoReports_tell :
    let crew := Crew.leaving 1 lastInterrupted
    let shots := ((run twoReports crew 2).run ()).1.snapshots
    ∃ result : Result Rat, ((run twoReports crew 2).run ()).1.ending = .ok result ∧
      shots.Pairwise Snapshot.UpTo ∧
      ∃ first last, shots = [first, last] ∧ first.finished = false ∧ last.finished = true ∧
        List.Forall₂ CandidateProgress.IsFinal last.candidates result.candidates := by
  intro crew shots
  have crew_plays : crew.PlayedBy 4 lastInterrupted := Crew.playedBy_leaving (by decide) 1 _
  have sound : ∀ t e, lastInterrupted t ≠ .error e := by
    intro t e
    rw [lastInterrupted]
    split <;> simp
  have valid : twoReports.validate = .ok () := by decide +kernel
  obtain ⟨result, ok⟩ := exists_result valid crew_plays sound 2 ()
  obtain ⟨-, unfinished, last, eq, ongoing, ended, final, -, up, every⟩ := snapshots_tell ok
  have one : ((played (trace twoReports crew 2 ())).filter whole).length = 1 := by decide +kernel
  have count := congrArg List.length (every rfl)
  rw [List.length_map, List.length_range, one] at count
  obtain ⟨first, rfl⟩ := List.length_eq_one_iff.1 count
  exact ⟨result, ok, up, first, last, eq, ongoing first (List.mem_singleton_self _), ended, final⟩

end Backgammon.Rollout
