import Backgammon.Proofs.Exact
import Backgammon.Proofs.Rollout.Failures
import Backgammon.Proofs.Rollout.Pairing

/-!
# Proofs/Rollout/Accounting — every trial is accounted for

A run deals its trials out batch by batch, drops contenders and lets them back in, and may be cut short
in the middle of a batch.  Through all of it every contender holds exactly what it has been credited
with, trial after trial, and the slot for an unpaired half is carried along.

* `Accounts` — the books of a run between two batches.
* `Accounts.absorbed`, `Accounts.checked` — they balance after a batch, and after a check.
* `exists_accounts` — they balance at the end of every run that has a result.
* `result_counts_credits` — so the result of a candidate is that of its observations.
-/

namespace Backgammon.Rollout

variable {σ α : Type} [Scalar α]

namespace Contender

/-- The results of a contender, which do not depend on whether it is live. -/
def revived (c : Contender α) : Contender α := { c with live := true }

theorem revived_absorb (antithetic : Bool) (c : Contender α) (t : Nat) (v : Equities α) :
    (c.absorb antithetic t v).revived = c.revived.absorb antithetic t v := by
  obtain ⟨moments, live, _ | ⟨first, w⟩⟩ := c
  all_goals
    simp only [absorb, revived]
    split
    · rfl
    · split <;> rfl

theorem revived_absorbEach (antithetic : Bool) (c : Contender α)
    (results : List (Nat × Equities α)) :
    (c.absorbEach antithetic results).revived = c.revived.absorbEach antithetic results := by
  induction results generalizing c with
  | nil => rfl
  | cons x results ih => exact (ih _).trans (congrArg (absorbEach antithetic · results)
      (revived_absorb antithetic c x.1 x.2))

end Contender

/-! ## What a check does to the contenders -/

/-- A check gives back the contenders that are left of an elimination, if there is one. -/
theorem StoppingRule.fst_check [RealFunctions α] (r : StoppingRule α) (key : Component)
    (field : List (Contender α)) :
    (r.check key field).1 = if r.stopOnJsd then r.eliminate key field else field := by
  unfold check
  dsimp only
  generalize (if r.stopOnJsd then r.eliminate key field else field) = checked
  split
  · rfl
  · split <;> rfl

/-- **A check leaves all results as they are.** -/
theorem StoppingRule.map_revived_check [RealFunctions α] (r : StoppingRule α) (key : Component)
    (field : List (Contender α)) :
    (r.check key field).1.map Contender.revived = field.map Contender.revived := by
  rw [fst_check, eliminate]
  split
  · split
    · rfl
    · rw [List.map_map]
      conv_rhs => rw [← List.zipIdx_map_fst 0 field, List.map_map]
      rfl
  · rfl

/-! ## The books of a run -/

/-- **The books of a run between two batches**: every contender has taken in what it is credited with
among the trials dealt out, and no task has been handed out twice. -/
structure Accounts (antithetic : Bool) (play : Outcomes α) (candidates dealt : Nat)
    (field : List (Contender α)) (handed : List Task) : Prop where
  length_eq : field.length = candidates
  revived_eq : ∀ (i : Nat) (c : Contender α), field[i]? = some c →
    c.revived = .fed antithetic (credited play handed i) dealt
  nodup : handed.Nodup
  lt : ∀ t ∈ handed, t.candidate < candidates ∧ t.trial < dealt

namespace Accounts

variable {antithetic : Bool} {play : Outcomes α} {candidates dealt : Nat}
  {field field' : List (Contender α)} {handed : List Task}

/-- The books of a run that begins. -/
theorem start (antithetic : Bool) (play : Outcomes α) (candidates : Nat) :
    Accounts antithetic play candidates 0 (List.replicate candidates .fresh) [] where
  length_eq := List.length_replicate
  revived_eq i c h := by
    obtain rfl := List.eq_of_mem_replicate (List.mem_of_getElem? h)
    rfl
  nodup := .nil
  lt t h := absurd h (by simp)

/-- Books that differ in the live flags alone. -/
theorem checked (h : Accounts antithetic play candidates dealt field handed)
    (same : field'.map Contender.revived = field.map Contender.revived) :
    Accounts antithetic play candidates dealt field' handed where
  length_eq := by simpa using (congrArg List.length same).trans (by simpa using h.length_eq)
  revived_eq i c hc := by
    have at_i : (field'.map Contender.revived)[i]? = (field.map Contender.revived)[i]? := by
      rw [same]
    rw [List.getElem?_map, List.getElem?_map, hc] at at_i
    obtain ⟨d, hd, hcd⟩ := Option.map_eq_some_iff.1 at_i.symm
    exact hcd.symm.trans (h.revived_eq i d hd)
  nodup := h.nodup
  lt := h.lt

/-- The seats of the field are those of candidates. -/
theorem lt_of_mem_seats (h : Accounts antithetic play candidates dealt field handed) {i : Nat}
    (hi : i ∈ seats field) : i < candidates := by
  obtain ⟨c, hc, -⟩ := mem_seats.1 hi
  exact h.length_eq ▸ (List.getElem?_eq_some_iff.1 hc).1

/-- **The books balance after a batch.**  Its trials come after all those dealt out before, so what
a candidate was credited with stays as it was. -/
theorem absorbed {workers : Nat} {reports : List (Report α)} {n : Nat}
    (h : Accounts antithetic play candidates dealt field handed)
    (played : Delivers workers play (tasks (List.range' dealt n) field) reports) :
    Accounts antithetic play candidates (dealt + n) (absorbAll antithetic field reports)
      (handed ++ tasks (List.range' dealt n) field) := by
  have later : ∀ t ∈ tasks (List.range' dealt n) field, dealt ≤ t.trial ∧ t.trial < dealt + n :=
    fun t ht => List.mem_range'_1.1 (mem_tasks.1 ht).1
  refine ⟨(length_absorbAll ..).trans h.length_eq, ?_, ?_, ?_⟩
  · intro i c hc
    rw [getElem?_absorbAll] at hc
    obtain ⟨d, hd, rfl⟩ := Option.map_eq_some_iff.1 hc
    rw [Contender.revived_absorbEach, h.revived_eq i d hd,
      resultsOf_eq played List.pairwise_lt_range']
    have batch : credits (credited play (tasks (List.range' dealt n) field) i)
        (List.range' dealt n) = credits (credited play (handed ++
          tasks (List.range' dealt n) field) i) (List.range' dealt n) := by
      refine List.filterMap_congr ?_
      intro t ht
      have new : (⟨i, t⟩ : Task) ∉ handed := fun old =>
        absurd (h.lt _ old).2 (Nat.not_lt.2 (List.mem_range'_1.1 ht).1)
      simp only [credited, List.mem_append, new, false_or]
    rw [batch]
    refine Contender.absorbEach_fed antithetic ?_ n
    intro t ht
    have old : (⟨i, t⟩ : Task) ∉ tasks (List.range' dealt n) field := fun new =>
      absurd ht (Nat.not_lt.2 (later _ new).1)
    simp only [credited, List.mem_append, old, or_false]
  · refine List.nodup_append.2 ⟨h.nodup, nodup_tasks List.nodup_range' field, ?_⟩
    rintro t old _ new rfl
    exact absurd (h.lt t old).2 (Nat.not_lt.2 (later t new).1)
  · intro t ht
    rcases List.mem_append.1 ht with old | new
    · exact ⟨(h.lt t old).1, Nat.lt_add_right n (h.lt t old).2⟩
    · exact ⟨h.lt_of_mem_seats (mem_tasks.1 new).2, (later t new).2⟩

end Accounts

/-! ## The whole run -/

variable {c : Settings α} {crew : Crew (StateM σ) α} {play : Outcomes α}
  {candidates workers : Nat} {x y : Stage (σ × List (List Task)) α} {w : σ × List (List Task)}

/-- The books of a stage, whose ledger names the tasks handed out. -/
structure Stage.Accounted (c : Settings α) (play : Outcomes α) (candidates : Nat)
    (x : Stage (σ × List (List Task)) α) : Prop where
  left_le : x.left ≤ c.batches
  accounts : Accounts c.antithetic play candidates (c.dealt (x.batch c)) x.state.field
    x.world.2.flatten

theorem Stage.Accounted.first (c : Settings α) (play : Outcomes α) (candidates : Nat) (s : σ) :
    (Stage.first c candidates (s, [])).Accounted c play candidates := by
  refine ⟨Nat.le_refl _, ?_⟩
  rw [Stage.batch_first, Settings.dealt_zero]
  exact .start c.antithetic play candidates

/-- The books once the reports of the next batch are taken in. -/
theorem Stage.Accounted.absorbed (hx : x.Accounted c play candidates) (pos : 0 < c.batchSize)
    (crew_plays : crew.PlayedBy workers play) {reports : List (Report α)}
    (played : Plays c crew.logged x reports w) :
    Accounts c.antithetic play candidates (c.dealt (x.batch c + 1)) (x.absorbed c reports).field
      w.2.flatten := by
  obtain ⟨played, ledger⟩ := played.unlogged
  obtain ⟨n, trials, dealt⟩ :=
    Settings.batchTrials_eq pos (Stage.batch_lt c x hx.left_le played.pos)
  have tasks : x.tasks c = Rollout.tasks (List.range' (c.dealt (x.batch c)) n) x.state.field :=
    congrArg (Rollout.tasks · x.state.field) trials
  have delivered : Delivers workers play (x.tasks c) reports := played.delivers crew_plays
  rw [ledger, List.flatten_append, List.flatten_singleton, dealt, tasks]
  exact hx.accounts.absorbed (tasks ▸ delivered)

variable [RealFunctions α]

/-- **The books balance from one batch to the next.** -/
theorem Stage.Accounted.advance (hx : x.Accounted c play candidates) (pos : 0 < c.batchSize)
    (crew_plays : crew.PlayedBy workers play) (step : Advance c crew.logged x y) :
    y.Accounted c play candidates := by
  have ledger := step.unlogged.2
  obtain @⟨reports, w, w', now, played, -, -, -, clock⟩ := step
  refine ⟨(Nat.sub_le _ _).trans hx.left_le, ?_⟩
  rw [ledger, ← played.unlogged.2, Stage.batch,
    Stage.batch_succ c x hx.left_le played.pos, RunState.field_shown]
  exact (hx.absorbed pos crew_plays played).checked (StoppingRule.map_revived_check ..)

/-- **The books balance where a run ends with a result**, whether or not the batch under way was
finished. -/
theorem Ends.exists_accounts {r : Run α} {result : Result α} (h : Ends c crew.logged x r w)
    (hx : x.Accounted c play candidates) (pos : 0 < c.batchSize)
    (crew_plays : crew.PlayedBy workers play) (ok : r.ending = .ok result) :
    ∃ field status dealt, dealt ≤ c.trials ∧
      Accounts c.antithetic play candidates dealt field w.2.flatten ∧
      result = ⟨field.map (·.result c.antithetic), status⟩ := by
  have closed {state : RunState α} {status : Status} (h : r = state.close c status) :
      result = ⟨state.field.map (·.result c.antithetic), status⟩ :=
    Except.ok.inj (ok.symm.trans (congrArg Run.ending h))
  have dealt_le (n : Nat) : c.dealt n ≤ c.trials := Nat.min_le_right ..
  cases h with
  | cancelled ask fin =>
    obtain ⟨fin, ledger⟩ := finish_logged fin
    rw [ledger, (run_of_alongside ask).2]
    exact ⟨_, _, _, dealt_le _, hx.accounts, closed (eq_close_of_finish fin)⟩
  | completed none_left ask fin =>
    obtain ⟨fin, ledger⟩ := finish_logged fin
    rw [ledger, (run_of_alongside ask).2]
    exact ⟨_, _, _, dealt_le _, hx.accounts, closed (eq_close_of_finish fin)⟩
  | failed played failed => exact nomatch ok
  | interrupted played sound cut fin =>
    obtain ⟨fin, ledger⟩ := finish_logged fin
    rw [ledger]
    exact ⟨_, _, _, dealt_le _, hx.absorbed pos crew_plays played, closed (eq_close_of_finish fin)⟩
  | stopped played sound whole stop clock fin =>
    obtain ⟨fin, ledger⟩ := finish_logged fin
    rw [worldShown_logged] at ledger
    rw [ledger, (run_of_alongside clock).2]
    refine ⟨_, _, c.dealt (x.batch c + 1), dealt_le _, ?_, closed (eq_close_of_finish fin)⟩
    rw [RunState.field_shown]
    exact (hx.absorbed pos crew_plays played).checked (StoppingRule.map_revived_check ..)

/-- **The books balance at the end of every run that has a result.** -/
theorem exists_accounts {s : σ} {result : Result α} (crew_plays : crew.PlayedBy workers play)
    (ok : ((run c crew candidates).run s).1.ending = .ok result) :
    ∃ field status dealt, dealt ≤ c.trials ∧
      Accounts c.antithetic play candidates dealt field (handedOut c crew candidates s).flatten ∧
      result = ⟨field.map (·.result c.antithetic), status⟩ := by
  have valid := validate_of_ending ok
  have pos := (Settings.pos_of_validate valid).2.1
  rw [run_logged c crew candidates (s, [])] at ok
  obtain ⟨last, hlast, ends⟩ := exists_last_stage valid crew.logged
    (Stage.Accounted.first c play candidates s)
    fun _ _ step hx => Stage.Accounted.advance hx pos crew_plays step
  exact ends.exists_accounts hlast pos crew_plays ok

/-- **The result of a candidate is that of its observations.**  Every trial that was handed to it and
played to its end counts once; with antithetic pairing every pair does of which both halves were.
No task is handed out twice, whoever is dropped, comes back or is cut short. -/
theorem result_counts_credits {s : σ} {result : Result α} (crew_plays : crew.PlayedBy workers play)
    (ok : ((run c crew candidates).run s).1.ending = .ok result) :
    let handed := (handedOut c crew candidates s).flatten
    (handed.Nodup ∧ ∀ t ∈ handed, t.candidate < candidates ∧ t.trial < c.trials) ∧
      result.candidates.length = candidates ∧
      ∀ (i : Nat) (x : CandidateResult α), result.candidates[i]? = some x →
        let seen := observations c.antithetic (credited play handed i) c.trials
        x.mean = (Moments.ofList seen).mean ∧
        x.stdError = (Moments.ofList seen).stdError ∧
        x.trials = if c.antithetic then 2 * seen.length else seen.length := by
  intro handed
  obtain ⟨field, status, dealt, le, books, rfl⟩ := exists_accounts crew_plays ok
  have in_bounds : ∀ t ∈ handed, t.candidate < candidates ∧ t.trial < c.trials := fun t ht =>
    ⟨(books.lt t ht).1, Nat.lt_of_lt_of_le (books.lt t ht).2 le⟩
  refine ⟨⟨books.nodup, in_bounds⟩, by simpa using books.length_eq, ?_⟩
  intro i x hx seen
  rw [List.getElem?_map] at hx
  obtain ⟨contender, hc, rfl⟩ := Option.map_eq_some_iff.1 hx
  have undealt : ∀ t, dealt ≤ t → credited play handed i t = none := fun t ht =>
    if_neg fun old => absurd (books.lt _ old).2 (Nat.not_lt.2 ht)
  have moments : contender.moments =
      .ofList (observations c.antithetic (credited play handed i) c.trials) := by
    have revived := congrArg Contender.moments (books.revived_eq i contender hc)
    rw [observations_eq_of_le le undealt]
    exact revived.trans (Contender.moments_fed ..)
  refine ⟨congrArg Moments.mean moments, congrArg Moments.stdError moments, ?_⟩
  rw [Contender.result, Contender.trials, moments, Moments.count_ofList, Nat.mul_comm]

/-- Six trials in antithetic pairs, in batches that cut every other pair. -/
def oddBatches : Settings Rat :=
  { Settings.standard with trials := 6, batchSize := 3, antithetic := true }

/-- Trials of two candidates, of which the last is interrupted. -/
def lastInterrupted : Outcomes Rat := fun t =>
  if t = ⟨1, 5⟩ then .ok none else .ok (some (.splat (t.trial : Rat)))

open Exact in
/-- The books of a run that is cut short between the halves of a pair. -/
theorem cutShort_counts_credits :
    let crew := Crew.inOrder lastInterrupted
    ∃ result : Result Rat, ((run oddBatches crew 2).run ()).1.ending = .ok result ∧
      ∀ (i : Nat) (x : CandidateResult Rat), result.candidates[i]? = some x →
        x.trials = 2 * (observations true
          (credited lastInterrupted (handedOut oddBatches crew 2 ()).flatten i) 6).length := by
  intro crew
  have crew_plays : crew.PlayedBy 4 lastInterrupted := Crew.playedBy_inOrder (by decide) _
  have sound : ∀ t e, lastInterrupted t ≠ .error e := by
    intro t e
    rw [lastInterrupted]
    split <;> exact nofun
  have valid : oddBatches.validate = .ok () := by decide +kernel
  obtain ⟨result, ok⟩ := exists_result valid crew_plays sound 2 ()
  refine ⟨result, ok, ?_⟩
  intro i x hx
  exact ((result_counts_credits crew_plays ok).2.2 i x hx).2.2

end Backgammon.Rollout
