import Backgammon.Proofs.Exact
import Backgammon.Proofs.Rollout.Pairing
import Backgammon.Proofs.Rollout.Stages

/-!
# Proofs/Rollout/Completion — a run with which nobody interferes

    candidate 0   ✓ ✓ ✓ │ ✓ ✓ ✓ │ …
    candidate 1   ✓ ✓ ✓ │ ✓ ✓ ✓ │ …

When no rule may stop the run, nobody cancels it and every trial comes to its end, all contenders stay
level: after every batch each has taken in all its trials so far.  What a candidate comes to then
depends neither on how the trials were dealt nor on who else was rolled out.

* `level` — contenders who have taken in all of their first trials.
* `absorbAll_level` — they stay level over a batch.
* `Undisturbed.ending_run` — the result of an undisturbed run.
* `Arena.soloResult` — what the trials of an arena make of a candidate on its own.
* `undisturbed_results_agree` — two such runs agree about the candidates that they share.
-/

namespace Backgammon.Rollout

variable {σ α : Type} [Scalar α]

/-! ## Contenders who are level -/

theorem Contender.live_absorb (antithetic : Bool) (c : Contender α) (t : Nat) (v : Equities α) :
    (c.absorb antithetic t v).live = c.live := by
  simp only [absorb]
  split
  · rfl
  · split
    · rfl
    · split <;> rfl

@[simp] theorem Contender.live_fed (antithetic : Bool) (credit : Nat → Option (Equities α))
    (n : Nat) : (fed antithetic credit n).live = true := by
  induction n with
  | zero => rfl
  | succ n ih =>
    rw [fed_succ]
    cases credit n with
    | none => exact ih
    | some v => exact (live_absorb ..).trans ih

/-- **Contenders who have taken in all of their first trials.** -/
def level (antithetic : Bool) (play : Outcomes α) (candidates trials : Nat) : List (Contender α) :=
  (List.range candidates).map fun i => .fed antithetic (fun t => play.value? ⟨i, t⟩) trials

variable {antithetic : Bool} {play : Outcomes α} {candidates workers n m i : Nat}

theorem getElem?_level (h : i < candidates) : (level antithetic play candidates n)[i]? =
    some (.fed antithetic (fun t => play.value? ⟨i, t⟩) n) := by
  rw [level, List.getElem?_map, List.getElem?_range h, Option.map_some]

theorem level_zero (antithetic : Bool) (play : Outcomes α) (candidates : Nat) :
    level antithetic play candidates 0 = List.replicate candidates .fresh := by
  have fresh : level antithetic play candidates 0 =
      (List.range candidates).map fun _ => Contender.fresh := rfl
  rw [fresh, List.map_const', List.length_range]

theorem length_level : (level antithetic play candidates n).length = candidates := by
  rw [level, List.length_map, List.length_range]

theorem mem_seats_level (h : i < candidates) : i ∈ seats (level antithetic play candidates n) :=
  mem_seats.2 ⟨_, getElem?_level h, Contender.live_fed ..⟩

/-- **Contenders stay level over a batch.** -/
theorem absorbAll_level {reports : List (Report α)} (played : Delivers workers play
      (tasks (List.range' n m) (level antithetic play candidates n)) reports) :
    absorbAll antithetic (level antithetic play candidates n) reports =
      level antithetic play candidates (n + m) := by
  refine List.ext_getElem? ?_
  intro i
  rw [getElem?_absorbAll]
  by_cases hi : i < candidates
  · have all : credits (credited play (tasks (List.range' n m) (level antithetic play candidates n))
        i) (List.range' n m) = credits (fun t => play.value? ⟨i, t⟩) (List.range' n m) := by
      refine List.filterMap_congr ?_
      intro t ht
      rw [credited, if_pos (mem_tasks.2 ⟨ht, mem_seats_level hi⟩)]
    rw [getElem?_level hi, getElem?_level hi, Option.map_some,
      resultsOf_eq played List.pairwise_lt_range', all,
      Contender.absorbEach_fed antithetic (fun _ _ => rfl)]
  · rw [List.getElem?_eq_none (by rw [length_level]; omega),
      List.getElem?_eq_none (by rw [length_level]; omega), Option.map_none]

/-- All trials give an observation each, and all pairs do. -/
theorem length_observations {credit : Nat → Option (Equities α)}
    (all : ∀ t < n, ∃ v, credit t = some v) :
    (observations antithetic credit n).length = if antithetic then n / 2 else n := by
  have every {f : Nat → Option (Equities α)} {k : Nat} (h : ∀ t < k, ∃ v, f t = some v) :
      ((List.range k).filterMap f).length = k := by
    rw [List.length_filterMap_eq_countP, List.countP_eq_length.2, List.length_range]
    intro t ht
    obtain ⟨v, hv⟩ := h t (List.mem_range.1 ht)
    rw [hv, Option.isSome_some]
  cases antithetic with
  | false => exact every all
  | true =>
    refine every ?_
    intro k hk
    obtain ⟨v, hv⟩ := all (2 * k) (by omega)
    obtain ⟨w, hw⟩ := all (2 * k + 1) (by omega)
    exact ⟨pairAverage v w, by rw [hv, hw, Option.map₂_some_some]⟩

/-! ## The run -/

/-- Neither rule may stop a run. -/
def StoppingRule.Off (r : StoppingRule α) : Prop := r.stopOnStd = false ∧ r.stopOnJsd = false

variable {c : Settings α} {crew : Crew (StateM σ) α} {x y : Stage σ α} {s : σ}
  {reports : List (Report α)}

/-- **A run with which nobody interferes**: the rules are off, the caller never cancels it, and every
trial comes to its end. -/
structure Undisturbed (c : Settings α) (crew : Crew (StateM σ) α) (play : Outcomes α)
    (candidates : Nat) : Prop where
  valid : c.validate = .ok ()
  off : c.stopping.Off
  plays : crew.PlayedBy c.parallelism play
  uncancelled : ∀ batch s, ((crew.cancelled batch).run s).1 = false
  whole : ∀ i < candidates, ∀ t < c.trials, ∃ v, play ⟨i, t⟩ = .ok (some v)

/-- Everybody has taken in the trials of the batches so far. -/
structure Stage.Level (c : Settings α) (play : Outcomes α) (candidates : Nat) (x : Stage σ α) :
    Prop where
  left_le : x.left ≤ c.batches
  field_eq : x.state.field = level c.antithetic play candidates (c.dealt (x.batch c))

theorem Stage.Level.first (c : Settings α) (play : Outcomes α) (candidates : Nat) (s : σ) :
    (Stage.first c candidates s).Level c play candidates := by
  refine ⟨Nat.le_refl _, ?_⟩
  rw [Stage.batch_first, Settings.dealt_zero, level_zero]
  rfl

namespace Undisturbed

variable (h : Undisturbed c crew play candidates)

include h

/-- The trials of a batch, dealt to contenders who are level. -/
theorem exists_tasks_eq (hx : x.Level c play candidates) (pos : 0 < x.left) :
    ∃ n, c.dealt (x.batch c + 1) = c.dealt (x.batch c) + n ∧
      x.tasks c = tasks (List.range' (c.dealt (x.batch c)) n)
        (level c.antithetic play candidates (c.dealt (x.batch c))) := by
  obtain ⟨n, trials, dealt⟩ :=
    Settings.batchTrials_eq (Settings.pos_of_validate h.valid).2.1 (x.batch_lt c hx.left_le pos)
  exact ⟨n, dealt, by rw [Stage.tasks, trials, hx.field_eq]⟩

/-- Every trial of a batch comes to its end. -/
theorem exists_outcome_eq (hx : x.Level c play candidates) (pos : 0 < x.left) {t : Task}
    (ht : t ∈ x.tasks c) : ∃ v, play t = .ok (some v) := by
  obtain ⟨n, dealt, tasks⟩ := h.exists_tasks_eq hx pos
  rw [tasks] at ht
  obtain ⟨trial, seat⟩ := mem_tasks.1 ht
  obtain ⟨contender, seated, -⟩ := mem_seats.1 seat
  have candidate_lt := (List.getElem?_eq_some_iff.1 seated).1
  rw [length_level] at candidate_lt
  have dealt_le : c.dealt (x.batch c + 1) ≤ c.trials := Nat.min_le_right ..
  exact h.whole t.candidate candidate_lt t.trial (by have := List.mem_range'_1.1 trial; omega)

/-- **Everybody is level after a batch.** -/
theorem absorbed (hx : x.Level c play candidates) (played : Plays c crew x reports s) :
    (x.absorbed c reports).field =
      level c.antithetic play candidates (c.dealt (x.batch c + 1)) := by
  obtain ⟨n, dealt, tasks⟩ := h.exists_tasks_eq hx played.pos
  have delivered := played.delivers h.plays
  rw [tasks] at delivered
  rw [Stage.absorbed, hx.field_eq, dealt]
  exact absorbAll_level delivered

end Undisturbed

variable [RealFunctions α]

theorem StoppingRule.check_off {r : StoppingRule α} (off : r.Off) (key : Component)
    (field : List (Contender α)) : r.check key field = (field, none) := by
  simp [check, off.1, off.2]

namespace Undisturbed

variable (h : Undisturbed c crew play candidates)

include h

theorem advance (hx : x.Level c play candidates) (step : Advance c crew x y) :
    y.Level c play candidates := by
  obtain @⟨reports, s, s', now, played, -, -, -, -⟩ := step
  refine ⟨(Nat.sub_le _ _).trans hx.left_le, ?_⟩
  rw [RunState.field_shown, Stage.checked, StoppingRule.check_off h.off, Stage.batch,
    x.batch_succ c hx.left_le played.pos]
  exact h.absorbed hx played

/-- An undisturbed run ends when no batch is left. -/
theorem ending_eq {r : Run α} (hx : x.Level c play candidates) (ends : Ends c crew x r s) :
    r.ending = .ok ⟨(level c.antithetic play candidates c.trials).map (·.result c.antithetic),
      .completed⟩ := by
  cases ends with
  | cancelled ask fin =>
    have asked := h.uncancelled (x.batch c) x.world
    rw [ask] at asked
    cases asked
  | completed none_left ask fin =>
    rw [eq_close_of_finish fin, RunState.close, hx.field_eq, Stage.batch, none_left, Nat.sub_zero,
      Settings.dealt_batches (Settings.pos_of_validate h.valid).2.1]
  | failed played failed =>
    obtain ⟨t, ht, e, he⟩ := (failsWith_of_failure? (played.delivers h.plays) failed).fails
    obtain ⟨v, hv⟩ := h.exists_outcome_eq hx played.pos ht
    rw [he] at hv
    cases hv
  | interrupted played sound cut fin =>
    obtain ⟨t, ht, ht'⟩ := (anyInterrupted_eq_true_iff (played.delivers h.plays)).1 cut
    obtain ⟨v, hv⟩ := h.exists_outcome_eq hx played.pos ht
    rw [ht'] at hv
    cases hv
  | stopped played sound whole stop clock fin =>
    rw [Stage.stopReason?, StoppingRule.check_off h.off] at stop
    cases stop

/-- **The result of an undisturbed run**: every candidate has had all its trials. -/
theorem ending_run (s : σ) : ((run c crew candidates).run s).1.ending =
    .ok ⟨(level c.antithetic play candidates c.trials).map (·.result c.antithetic),
      .completed⟩ := by
  obtain ⟨last, hlast, ends⟩ := exists_last_stage h.valid crew
    (Stage.Level.first c play candidates s) fun _ _ step hx => h.advance hx step
  exact h.ending_eq hlast ends

end Undisturbed

/-! ## Candidates on their own -/

section

variable {δ Board Move : Type} {m : Type → Type} [Monad m]

/-- An arena at another pace. -/
def Arena.paced (a : Arena m δ α Board Move) (batchSize parallelism progressInterval : Nat) :
    Arena m δ α Board Move :=
  { a with settings := a.settings.paced batchSize parallelism progressInterval }

omit [RealFunctions α] in
/-- **A trial does not know the pace of the run.** -/
theorem Arena.play_paced (a : Arena m δ α Board Move)
    (batchSize parallelism progressInterval horizon : Nat) (board : Board) (stakes : Stakes)
    (dice : δ) : (a.paced batchSize parallelism progressInterval).play horizon board stakes dice =
      a.play horizon board stakes dice := by
  have turns (horizon : Nat) (t : Trial δ α Board) :
      (a.paced batchSize parallelism progressInterval).playOn horizon t = a.playOn horizon t := by
    induction horizon generalizing t with
    | zero => rfl
    | succ horizon ih =>
      have turn : (a.paced batchSize parallelism progressInterval).turn t = a.turn t := rfl
      rw [playOn, playOn, turn]
      simp only [ih]
  exact turns horizon _

end

section

variable {τ δ Board Move : Type} (a : Arena Id δ α Board Move) (start : Nat → δ) (horizon : Nat)

/-- How the trials of one candidate end. -/
def Arena.soloOutcome (x : Candidate Board) (trial : Nat) :
    Except TrialError (Option (Equities α)) :=
  (a.play horizon x.board x.stakes (start trial)).run.run

omit [RealFunctions α] in
theorem Arena.outcomes_eq {candidates : Array (Candidate Board)} {i : Nat} {x : Candidate Board}
    (hx : candidates[i]? = some x) (trial : Nat) :
    a.outcomes start horizon candidates ⟨i, trial⟩ = a.soloOutcome start horizon x trial := by
  rw [outcomes, perform, hx]
  rfl

omit [RealFunctions α] in
theorem Arena.soloOutcome_paced (x : Candidate Board)
    (batchSize parallelism progressInterval trial : Nat) :
    (a.paced batchSize parallelism progressInterval).soloOutcome start horizon x trial =
      a.soloOutcome start horizon x trial := by
  rw [soloOutcome, soloOutcome, play_paced]

/-- What a candidate is credited with on its own. -/
def Arena.soloCredit (x : Candidate Board) (trial : Nat) : Option (Equities α) :=
  finished? (a.soloOutcome start horizon x trial)

/-- **The result of a candidate on its own**, after all its trials: it names neither a batch nor
another candidate. -/
def Arena.soloResult (x : Candidate Board) : CandidateResult α :=
  let seen := observations a.settings.antithetic (a.soloCredit start horizon x) a.settings.trials
  { mean := (Moments.ofList seen).mean
    stdError := (Moments.ofList seen).stdError
    trials := if a.settings.antithetic then 2 * seen.length else seen.length
    eliminated := false }

theorem Arena.soloResult_paced (batchSize parallelism progressInterval : Nat) :
    (a.paced batchSize parallelism progressInterval).soloResult start horizon =
      a.soloResult start horizon := by
  have credit (x : Candidate Board) :
      (a.paced batchSize parallelism progressInterval).soloCredit start horizon x =
        a.soloCredit start horizon x := by
    funext trial
    rw [soloCredit, soloCredit, soloOutcome_paced]
  funext x
  rw [soloResult, soloResult, credit x]
  rfl

/-- **Among others a candidate comes to what it comes to on its own.** -/
theorem Arena.map_result_level (candidates : Array (Candidate Board)) :
    (level a.settings.antithetic (a.outcomes start horizon candidates) candidates.size
        a.settings.trials).map (·.result a.settings.antithetic) =
      candidates.toList.map (a.soloResult start horizon) := by
  refine List.ext_getElem? ?_
  intro i
  have listed : candidates.toList[i]? = candidates[i]? := Array.getElem?_toList
  rw [List.getElem?_map, List.getElem?_map, listed]
  by_cases hi : i < candidates.size
  · have hx : candidates[i]? = some candidates[i] := Array.getElem?_eq_getElem hi
    have credit : (fun t => (a.outcomes start horizon candidates).value? ⟨i, t⟩) =
        a.soloCredit start horizon candidates[i] := by
      funext t
      rw [Outcomes.value?, a.outcomes_eq start horizon hx, soloCredit]
    rw [getElem?_level hi, hx, credit, Option.map_some, Option.map_some, Contender.result,
      Contender.trials, Contender.live_fed, Contender.moments_fed, Moments.count_ofList,
      Nat.mul_comm]
    rfl
  · rw [List.getElem?_eq_none (by rw [length_level]; omega),
      Array.getElem?_eq_none (by omega), Option.map_none, Option.map_none]

variable {a start horizon} {candidates candidates' : Array (Candidate Board)}
  {crew : Crew (StateM σ) α} {crew' : Crew (StateM τ) α}

/-- The result of an undisturbed run in an arena. -/
theorem Arena.ending_run (h : Undisturbed a.settings crew (a.outcomes start horizon candidates)
    candidates.size) (s : σ) : ((run a.settings crew candidates.size).run s).1.ending =
      .ok ⟨candidates.toList.map (a.soloResult start horizon), .completed⟩ := by
  rw [h.ending_run s, a.map_result_level]

omit [RealFunctions α] in
/-- All trials of the candidates that are in the run come to their end. -/
theorem Undisturbed.exists_soloOutcome_eq (h : Undisturbed a.settings crew
    (a.outcomes start horizon candidates) candidates.size) {x : Candidate Board}
    (hx : x ∈ candidates) {t : Nat} (ht : t < a.settings.trials) :
    ∃ v, a.soloOutcome start horizon x t = .ok (some v) := by
  obtain ⟨i, hi, rfl⟩ := Array.mem_iff_getElem.1 hx
  obtain ⟨v, hv⟩ := h.whole i hi t ht
  exact ⟨v, by rw [← hv, a.outcomes_eq start horizon (Array.getElem?_eq_getElem hi)]⟩

/-- **Two undisturbed runs agree about the candidates that they share.**  Where nobody interferes with
one run, every run over some of its candidates, at any pace and with any other crew that does not
cancel it, is completed as well.  No candidate is dropped, each has had all its trials, and each has
the same result in both. -/
theorem undisturbed_results_agree (h : Undisturbed a.settings crew
      (a.outcomes start horizon candidates) candidates.size)
    {batchSize parallelism : Nat} (batchSize_pos : 0 < batchSize) (parallelism_pos : 0 < parallelism)
    (progressInterval : Nat) (sub : ∀ x ∈ candidates', x ∈ candidates)
    (plays' : crew'.PlayedBy parallelism
      ((a.paced batchSize parallelism progressInterval).outcomes start horizon candidates'))
    (uncancelled' : ∀ batch s, ((crew'.cancelled batch).run s).1 = false) (s : σ) (s' : τ) :
    ∃ result result',
      ((run a.settings crew candidates.size).run s).1.ending = .ok result ∧
      ((run (a.paced batchSize parallelism progressInterval).settings crew'
        candidates'.size).run s').1.ending = .ok result' ∧
      (result.status = .completed ∧ result'.status = .completed) ∧
      (result.candidates.length = candidates.size ∧
        result'.candidates.length = candidates'.size) ∧
      (∀ x ∈ result.candidates, x.eliminated = false ∧ x.trials =
        if a.settings.antithetic then 2 * (a.settings.trials / 2) else a.settings.trials) ∧
      ∀ i i' : Nat, candidates[i]? = candidates'[i']? →
        result.candidates[i]? = result'.candidates[i']? := by
  have h' : Undisturbed (a.paced batchSize parallelism progressInterval).settings crew'
      ((a.paced batchSize parallelism progressInterval).outcomes start horizon candidates')
      candidates'.size := by
    refine ⟨Settings.validate_paced h.valid batchSize_pos parallelism_pos progressInterval, h.off,
      plays', uncancelled', ?_⟩
    intro i hi t ht
    rw [Arena.outcomes_eq _ start horizon (Array.getElem?_eq_getElem hi), Arena.soloOutcome_paced]
    exact h.exists_soloOutcome_eq (sub _ (Array.getElem_mem hi)) ht
  refine ⟨_, _, Arena.ending_run h s, Arena.ending_run h' s', ⟨rfl, rfl⟩,
    ⟨by simp only [List.length_map, Array.length_toList],
      by simp only [List.length_map, Array.length_toList]⟩, ?_, ?_⟩
  · intro x hx
    obtain ⟨candidate, mem, rfl⟩ := List.mem_map.1 hx
    refine ⟨rfl, ?_⟩
    have credited : ∀ t < a.settings.trials, ∃ v, a.soloCredit start horizon candidate t = some v := by
      intro t ht
      obtain ⟨v, hv⟩ := h.exists_soloOutcome_eq (Array.mem_toList_iff.1 mem) ht
      exact ⟨v, by rw [Arena.soloCredit, hv, finished?]⟩
    rw [Arena.soloResult, length_observations credited]
    split <;> rfl
  · intro i i' same
    rw [a.soloResult_paced, List.getElem?_map, List.getElem?_map, Array.getElem?_toList,
      Array.getElem?_toList, same]

end

/-- Games in which every roll brings the end one turn nearer, in antithetic pairs. -/
def countdown : Arena Id Nat Rat Nat Unit where
  game :=
    { legalMoves := fun _ _ => [()]
      play := fun n _ => n - 1
      pass := id
      outcome? := fun n => if n = 0 then some ⟨.opponent, .single⟩ else none }
  evaluator _ _ _ := pure .zero
  met := ⟨fun _ _ _ => 1 / 2⟩
  settings :=
    { Settings.standard with trials := 5, batchSize := 2, antithetic := true, cubeful := false }
  roll n := pure (⟨1, 2⟩, n + 1)
  interrupted _ := pure false

open Exact in
/-- A candidate beside another in short batches, and the same candidate alone in longer ones. -/
theorem countdown_results_agree :
    let near : Candidate Nat := ⟨1, .money .zero⟩
    let far : Candidate Nat := ⟨2, .money .zero⟩
    let both := #[near, far]
    let longer := countdown.paced 3 1 0
    ∃ result result' : Result Rat,
      ((run countdown.settings (.inOrder (countdown.outcomes id 4 both)) 2).run ()).1.ending =
        .ok result ∧
      ((run longer.settings (.inOrder (longer.outcomes id 4 #[far])) 1).run ()).1.ending =
        .ok result' ∧
      result.candidates[1]? = result'.candidates[0]? := by
  intro near far both longer
  have undisturbed : Undisturbed countdown.settings (.inOrder (countdown.outcomes id 4 both))
      (countdown.outcomes id 4 both) both.size := by
    refine ⟨by decide +kernel, ⟨rfl, rfl⟩, Crew.playedBy_inOrder (by decide) _, fun _ _ => rfl,
      ?_⟩
    intro i hi t _
    match i, hi with
    | 0, _ => exact ⟨_, rfl⟩
    | 1, _ => exact ⟨_, rfl⟩
  have shared : ∀ x ∈ #[far], x ∈ both := by simp [both]
  have alone : (Crew.inOrder (longer.outcomes id 4 #[far])).PlayedBy 1
      (longer.outcomes id 4 #[far]) := Crew.playedBy_inOrder (by decide) _
  obtain ⟨result, result', ok, ok', -, -, -, agree⟩ := undisturbed_results_agree undisturbed
    (by decide : 0 < 3) (by decide : 0 < 1) 0 shared alone (fun _ _ => rfl) () ()
  exact ⟨result, result', ok, ok', agree 1 0 rfl⟩

end Backgammon.Rollout
