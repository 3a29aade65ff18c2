import Backgammon.Proofs.Exact
import Backgammon.Proofs.Rollout.Failures

/-!
# Proofs/Rollout/Schedules — the workers do not show

    x ──Advance──▸ x'        a batch played by these workers,
    │              │
    y ──Advance──▸ y'        and the same batch played by others

Two crews play the same trials for the same caller, with any number of workers, who may hand their
reports in in any order.  Their runs go in lockstep.

* `SameSurroundings`, `SameTimes` — crews that differ in their workers, and in their clocks at most.
* `absorbAll_eq` — a batch adds the same to the results, whoever plays it.
* `Stage.Alike` — stages that differ in nothing but the times and reports of crews whose clocks differ.
* `Stage.Alike.exists_advance`, `exists_ends` — what one run does at a stage the other does.
* `ending_eq_of_schedules` — so both end the same way.
* `clocks_show` — but for what the clock decides.
-/

namespace Backgammon.Rollout

open Relation

variable {σ α : Type}

/-! ## Crews that differ in their workers -/

/-- **Two crews for the same caller**: they ask and tell it the same, and leave the same world behind.
Their workers and their clocks are their own. -/
structure SameSurroundings (crew crew' : Crew (StateM σ) α) : Prop where
  cancelled_eq : crew.cancelled = crew'.cancelled
  report_eq : crew.report = crew'.report
  perform_world : ∀ batch tasks s,
    ((crew.perform batch tasks).run s).2 = ((crew'.perform batch tasks).run s).2
  clock_world : ∀ batch s, ((crew.clock batch).run s).2 = ((crew'.clock batch).run s).2

/-- The clocks make no difference to when a report is due. -/
def SameTimes (interval : Nat) (crew crew' : Crew (StateM σ) α) : Prop :=
  interval = 0 ∨ ∀ batch s, ((crew.clock batch).run s).1 = ((crew'.clock batch).run s).1

/-- A caller on whom reports have no effect. -/
def Crew.Passive (crew : Crew (StateM σ) α) : Prop := ∀ shot s, ((crew.report shot).run s).2 = s

variable {crew crew' : Crew (StateM σ) α}

theorem SameSurroundings.logged (h : SameSurroundings crew crew') :
    SameSurroundings crew.logged crew'.logged where
  cancelled_eq := by rw [Crew.logged, Crew.logged, h.cancelled_eq]
  report_eq := by rw [Crew.logged, Crew.logged, h.report_eq]
  perform_world batch tasks w :=
    congrArg (·, w.2 ++ [tasks]) (h.perform_world batch tasks w.1)
  clock_world batch w := congrArg (·, w.2) (h.clock_world batch w.1)

theorem SameTimes.logged {interval : Nat} (h : SameTimes interval crew crew') :
    SameTimes interval crew.logged crew'.logged :=
  h.imp_right fun same batch w => same batch w.1

theorem Crew.Passive.logged (h : crew.Passive) : crew.logged.Passive := fun shot w =>
  congrArg (·, w.2) (h shot w.1)

/-- The other clock shows a time as well. -/
theorem SameSurroundings.exists_clock (h : SameSurroundings crew crew') {batch now : Nat}
    {s s' : σ} (clock : (crew.clock batch).run s = (now, s')) :
    ∃ now', (crew'.clock batch).run s = (now', s') ∧
      ∀ interval, SameTimes interval crew crew' → interval = 0 ∨ now = now' := by
  refine ⟨((crew'.clock batch).run s).1, ?_, ?_⟩
  · exact Prod.ext rfl ((h.clock_world batch s).symm.trans (by rw [clock]))
  · intro interval same
    exact same.imp_right fun same => (congrArg Prod.fst clock).symm.trans (same batch s)

/-! ## The same batch, played by others -/

variable [Scalar α] {c : Settings α} {play : Outcomes α} {workers workers' candidates : Nat}

/-- **A batch adds the same to the results**, whoever plays it. -/
theorem absorbAll_eq {batch : Nat} {field : List (Contender α)} {reports reports' : List (Report α)}
    (h : Delivers workers play (tasks (c.batchTrials batch) field) reports)
    (h' : Delivers workers' play (tasks (c.batchTrials batch) field) reports') (antithetic : Bool) :
    absorbAll antithetic field reports = absorbAll antithetic field reports' := by
  have ordered : (c.batchTrials batch).Pairwise (· < ·) := List.pairwise_lt_range'
  refine List.map_congr_left ?_
  intro x _
  simp only [resultsOf_eq h ordered, resultsOf_eq h' ordered]

variable [RealFunctions α]

/-- **States that show the same**: equal results and, if the clocks are to agree, equal reports. -/
structure RunState.Alike (interval : Nat) (sameTimes : Prop) (a b : RunState α) : Prop where
  field_eq : a.field = b.field
  reported_eq : sameTimes → a.reported = b.reported
  lastReport_eq : sameTimes → interval = 0 ∨ a.lastReport = b.lastReport

/-- Stages that show the same. -/
structure Stage.Alike (interval : Nat) (sameTimes : Prop) (x y : Stage σ α) : Prop where
  left_eq : x.left = y.left
  state : x.state.Alike interval sameTimes y.state
  world_eq : x.world = y.world

theorem reportDue_eq {interval now now' : Nat} {last last' : Option Nat}
    (same_last : interval = 0 ∨ last = last') (same_now : interval = 0 ∨ now = now') :
    reportDue interval last now = reportDue interval last' now' := by
  rcases same_last with rfl | rfl
  · have always (l : Option Nat) (n : Nat) : reportDue 0 l n = true := by
      cases l <;> simp [reportDue]
    rw [always, always]
  · rcases same_now with rfl | rfl
    · cases last <;> simp [reportDue]
    · rfl

namespace RunState.Alike

variable {interval : Nat} {sameTimes : Prop} {a b : RunState α} {now now' : Nat}

/-- Reports are due at the same times, if the clocks agree. -/
theorem shown (h : a.Alike c.progressInterval sameTimes b)
    (clocks : sameTimes → c.progressInterval = 0 ∨ now = now') :
    (a.shown c now).Alike c.progressInterval sameTimes (b.shown c now') := by
  refine ⟨?_, fun same => ?_, fun same => ?_⟩
  · rw [field_shown, field_shown, h.field_eq]
  all_goals
    rw [RunState.shown, RunState.shown, reportDue_eq (h.lastReport_eq same) (clocks same),
      h.field_eq]
    split
  · exact congrArg (snapshot c.antithetic false b.field :: ·) (h.reported_eq same)
  · exact h.reported_eq same
  · exact (clocks same).imp_right (congrArg some)
  · exact h.lastReport_eq same

end RunState.Alike

/-! ## Lockstep -/

namespace Stage.Alike

variable {interval : Nat} {sameTimes : Prop} {x y : Stage σ α}

omit [Scalar α] [RealFunctions α] in
theorem batch_eq (h : x.Alike interval sameTimes y) : x.batch c = y.batch c := by
  rw [Stage.batch, Stage.batch, h.left_eq]

omit [Scalar α] [RealFunctions α] in
theorem tasks_eq (h : x.Alike interval sameTimes y) : x.tasks c = y.tasks c := by
  rw [Stage.tasks, Stage.tasks, h.batch_eq, h.state.field_eq]

omit [Scalar α] [RealFunctions α] in
/-- A batch that one crew plays the other plays as well. -/
theorem exists_plays (h : x.Alike interval sameTimes y) (same : SameSurroundings crew crew')
    {reports : List (Report α)} {s : σ} (played : Plays c crew x reports s) :
    ∃ reports', Plays c crew' y reports' s := by
  obtain ⟨pos, s₁, ask, perform⟩ := played
  rw [same.cancelled_eq, h.batch_eq, h.world_eq] at ask
  refine ⟨_, h.left_eq ▸ pos, s₁, ask, Prod.ext rfl ?_⟩
  rw [← same.perform_world, ← h.batch_eq, ← h.tasks_eq, perform]

end Stage.Alike

/-- **Two piles of reports from which the same is read**, each at its stage. -/
structure ReadAlike (c : Settings α) (sameTimes : Prop) (x y : Stage σ α)
    (reports reports' : List (Report α)) : Prop where
  sound_iff : failure? reports = none ↔ failure? reports' = none
  cut_eq : anyInterrupted reports = anyInterrupted reports'
  stop_eq : x.stopReason? c reports = y.stopReason? c reports'
  absorbed : (x.absorbed c reports).Alike c.progressInterval sameTimes (y.absorbed c reports')
  checked : (x.checked c reports).Alike c.progressInterval sameTimes (y.checked c reports')

/-- **The order of the reports does not matter.** -/
theorem Stage.Alike.readAlike {sameTimes : Prop} {x y : Stage σ α}
    {reports reports' : List (Report α)} (h : x.Alike c.progressInterval sameTimes y)
    (delivered : Delivers workers play (x.tasks c) reports)
    (delivered' : Delivers workers' play (y.tasks c) reports') :
    ReadAlike c sameTimes x y reports reports' := by
  rw [h.tasks_eq] at delivered
  have field : (x.absorbed c reports).field = (y.absorbed c reports').field := by
    rw [Stage.absorbed, Stage.absorbed, h.state.field_eq]
    exact absorbAll_eq delivered delivered' c.antithetic
  refine ⟨?_, ?_, ?_, ⟨field, h.state.reported_eq, h.state.lastReport_eq⟩, ⟨?_,
    h.state.reported_eq, h.state.lastReport_eq⟩⟩
  · rw [failure?_eq_none_iff delivered, failure?_eq_none_iff delivered']
  · rw [Bool.eq_iff_iff, anyInterrupted_eq_true_iff delivered,
      anyInterrupted_eq_true_iff delivered']
  · rw [Stage.stopReason?, Stage.stopReason?, field]
  · rw [Stage.checked, Stage.checked, field]

namespace RunState.Alike

variable {sameTimes : Prop} {a b : RunState α} {now now' : Nat} {s s' : σ} {r : Run α}
  {status : Status}

/-- What one crew closes the other can close. -/
theorem finish_run (h : a.Alike c.progressInterval sameTimes b)
    (same : SameSurroundings crew crew') (fin : (finish c crew a status).run s = (r, s')) :
    r = a.close c status ∧ (finish c crew' b status).run s = (b.close c status, s') := by
  rw [Rollout.finish_run] at fin ⊢
  obtain ⟨rfl, rfl⟩ := Prod.mk.inj fin
  rw [h.field_eq, same.report_eq]
  exact ⟨rfl, rfl⟩

/-- The caller acts on the same snapshot, if the clocks agree, or does not act at all. -/
theorem worldShown_eq (h : a.Alike c.progressInterval sameTimes b)
    (same : SameSurroundings crew crew') (timing : sameTimes ∨ crew.Passive)
    (clocks : sameTimes → c.progressInterval = 0 ∨ now = now') :
    worldShown c crew a now s = worldShown c crew' b now' s := by
  rw [worldShown, worldShown, ← same.report_eq, h.field_eq]
  rcases timing with times | passive
  · rw [reportDue_eq (h.lastReport_eq times) (clocks times)]
  · simp only [passive _ s, ite_self]

end RunState.Alike

/-! ## Two runs -/

/-- **Two runs that end alike**: where one has a result the other has the same and, if the clocks
agree, they have reported the same. -/
structure Run.Alike (sameTimes : Prop) (r r' : Run α) : Prop where
  snapshots_eq : sameTimes → r.snapshots = r'.snapshots
  ok : ∀ result, r.ending = .ok result → r'.ending = .ok result

theorem RunState.Alike.close {interval : Nat} {sameTimes : Prop} {a b : RunState α}
    (h : a.Alike interval sameTimes b) (status : Status) :
    (a.close c status).Alike sameTimes (b.close c status) := by
  constructor
  · intro times
    rw [RunState.close, RunState.close, h.field_eq, h.reported_eq times]
  · intro result ok
    rwa [RunState.close, h.field_eq] at ok

section

variable {x x' y : Stage σ α} {r : Run α} {s : σ}
  (h : x.Alike c.progressInterval (SameTimes c.progressInterval crew crew') y)
  (same : SameSurroundings crew crew') (plays : crew.PlayedBy workers play)
  (plays' : crew'.PlayedBy workers' play)
  (timing : SameTimes c.progressInterval crew crew' ∨ crew.Passive)

include h same plays plays' timing

/-- **What one run does at a stage the other does**: it goes on… -/
theorem Stage.Alike.exists_advance (step : Advance c crew x x') :
    ∃ y', Advance c crew' y y' ∧
      x'.Alike c.progressInterval (SameTimes c.progressInterval crew crew') y' := by
  obtain @⟨reports, s₁, s₂, now, played, sound, whole, goOn, clock⟩ := step
  obtain ⟨reports', played'⟩ := h.exists_plays same played
  obtain ⟨now', clock', clocks⟩ := same.exists_clock clock
  have read := h.readAlike (played.delivers plays) (played'.delivers plays')
  rw [h.batch_eq] at clock'
  refine ⟨_, .mk played' (read.sound_iff.1 sound) (read.cut_eq ▸ whole) (read.stop_eq ▸ goOn)
    clock', ?_⟩
  exact ⟨congrArg (· - 1) h.left_eq, read.checked.shown (clocks _),
    read.checked.worldShown_eq same timing (clocks _)⟩

/-- …or it ends. -/
theorem Stage.Alike.exists_ends (ends : Ends c crew x r s) :
    ∃ r', Ends c crew' y r' s ∧ r.Alike (SameTimes c.progressInterval crew crew') r' := by
  cases ends with
  | cancelled ask fin =>
    rw [same.cancelled_eq, h.batch_eq, h.world_eq] at ask
    obtain ⟨rfl, fin'⟩ := h.state.finish_run same fin
    exact ⟨_, .cancelled ask fin', h.state.close _⟩
  | completed none_left ask fin =>
    rw [same.cancelled_eq, h.batch_eq, h.world_eq] at ask
    obtain ⟨rfl, fin'⟩ := h.state.finish_run same fin
    exact ⟨_, .completed (h.left_eq ▸ none_left) ask fin', h.state.close _⟩
  | failed played failed =>
    obtain ⟨reports', played'⟩ := h.exists_plays same played
    have read := h.readAlike (played.delivers plays) (played'.delivers plays')
    have failed' : failure? reports' ≠ none := fun sound =>
      absurd (read.sound_iff.2 sound) (by simp [failed])
    obtain ⟨e', failed'⟩ := Option.ne_none_iff_exists'.1 failed'
    refine ⟨_, .failed played' failed', ?_, fun _ ok => nomatch ok⟩
    intro times
    exact congrArg List.reverse (h.state.reported_eq times)
  | interrupted played sound cut fin =>
    obtain ⟨reports', played'⟩ := h.exists_plays same played
    have read := h.readAlike (played.delivers plays) (played'.delivers plays')
    obtain ⟨rfl, fin'⟩ := read.absorbed.finish_run same fin
    exact ⟨_, .interrupted played' (read.sound_iff.1 sound) (read.cut_eq ▸ cut) fin',
      read.absorbed.close _⟩
  | stopped played sound whole stop clock fin =>
    obtain ⟨reports', played'⟩ := h.exists_plays same played
    obtain ⟨now', clock', clocks⟩ := same.exists_clock clock
    have read := h.readAlike (played.delivers plays) (played'.delivers plays')
    have shown := read.checked.shown (clocks _)
    obtain ⟨rfl, fin'⟩ := shown.finish_run same fin
    rw [read.checked.worldShown_eq same timing (clocks _)] at fin'
    rw [h.batch_eq] at clock'
    exact ⟨_, .stopped played' (read.sound_iff.1 sound) (read.cut_eq ▸ whole)
      (read.stop_eq ▸ stop) clock' fin', shown.close _⟩

/-- What one run goes through, batch by batch, the other goes through. -/
theorem Stage.Alike.exists_reaches (reach : Reaches c crew x x') :
    ∃ y', Reaches c crew' y y' ∧
      x'.Alike c.progressInterval (SameTimes c.progressInterval crew crew') y' := by
  induction reach with
  | refl => exact ⟨y, .refl, h⟩
  | tail _ step ih =>
    obtain ⟨y₁, reach, h₁⟩ := ih
    obtain ⟨y₂, step', h₂⟩ := h₁.exists_advance same plays plays' timing step
    exact ⟨y₂, reach.tail step', h₂⟩

omit h in
/-- **Two crews bring a run to the same end.** -/
theorem run_alike (valid : c.validate = .ok ()) (candidates : Nat) (s : σ) :
    ((run c crew candidates).run s).2 = ((run c crew' candidates).run s).2 ∧
      ((run c crew candidates).run s).1.Alike (SameTimes c.progressInterval crew crew')
        ((run c crew' candidates).run s).1 := by
  obtain ⟨last, reach, ends⟩ := exists_reaches_run valid crew candidates s
  have start : (Stage.first c candidates s).Alike c.progressInterval
      (SameTimes c.progressInterval crew crew') (Stage.first c candidates s) :=
    ⟨rfl, ⟨rfl, fun _ => rfl, fun _ => .inr rfl⟩, rfl⟩
  obtain ⟨last', reach', alike⟩ := start.exists_reaches same plays plays' timing reach
  obtain ⟨r', ends', ended⟩ := alike.exists_ends same plays plays' timing ends
  rw [reach'.run_eq valid ends']
  exact ⟨rfl, ended⟩

end

/-! ## More workers or fewer -/

omit [Scalar α] [RealFunctions α] in
theorem Crew.PlayedBy.logged (h : crew.PlayedBy workers play) :
    crew.logged.PlayedBy workers play := fun batch tasks w => h batch tasks w.1

/-- The loop does not look at the number of workers. -/
theorem runFrom_parallelism (c : Settings α) (parallelism : Nat) (crew : Crew (StateM σ) α)
    (left : Nat) (state : RunState α) :
    runFrom { c with parallelism } crew left state = runFrom c crew left state := by
  induction left generalizing state with
  | zero =>
    rw [runFrom, runFrom]
    rfl
  | succ left ih =>
    rw [runFrom, runFrom]
    simp only [ih]
    rfl

theorem run_parallelism (valid : c.validate = .ok ()) {parallelism : Nat}
    (pos : 0 < parallelism) (crew : Crew (StateM σ) α) (candidates : Nat) :
    run { c with parallelism } crew candidates = run c crew candidates := by
  have valid' : Settings.validate { c with parallelism } = .ok () :=
    Settings.validate_paced valid (Settings.pos_of_validate valid).2.1 pos c.progressInterval
  rw [run, run, valid, valid']
  exact runFrom_parallelism c parallelism crew c.batches _

theorem handedOut_parallelism (valid : c.validate = .ok ()) {parallelism : Nat}
    (pos : 0 < parallelism) (crew : Crew (StateM σ) α) (candidates : Nat) (s : σ) :
    handedOut { c with parallelism } crew candidates s = handedOut c crew candidates s := by
  rw [handedOut, handedOut, run_parallelism valid pos]

/-- **The workers do not show in the way a run ends.**  Whatever their number and whatever the order in
which their reports come in, the same batches are handed out.  If none of their trials fails, the
result is the same; if one does, the run fails with a failure of the same batch.  The snapshots are the
same as long as the clocks agree on when one is due. -/
theorem ending_eq_of_schedules {parallelism : Nat} (valid : c.validate = .ok ())
    (pos : 0 < parallelism) (plays : crew.PlayedBy c.parallelism play)
    (plays' : crew'.PlayedBy parallelism play) (same : SameSurroundings crew crew')
    (timing : SameTimes c.progressInterval crew crew' ∨ crew.Passive) (candidates : Nat) (s : σ) :
    let r := (run c crew candidates).run s
    let r' := (run { c with parallelism } crew' candidates).run s
    let handed := handedOut c crew candidates s
    handedOut { c with parallelism } crew' candidates s = handed ∧ r'.2 = r.2 ∧
      (SameTimes c.progressInterval crew crew' → r'.1.snapshots = r.1.snapshots) ∧
      ((∀ batch ∈ handed, ¬ Fails play batch) →
        ∃ result, r.1.ending = .ok result ∧ r'.1.ending = .ok result) ∧
      ∀ batch ∈ handed, Fails play batch → ∃ e e', r.1.ending = .error e ∧ r'.1.ending = .error e' ∧
        FailsWith c.parallelism play batch e ∧ FailsWith parallelism play batch e' := by
  intro r r' handed
  have ledgers : handedOut { c with parallelism } crew' candidates s = handed := by
    rw [handedOut_parallelism valid pos]
    refine congrArg Prod.snd (run_alike same.logged plays.logged plays'.logged ?_ valid candidates
      (s, [])).1.symm
    exact timing.imp SameTimes.logged Crew.Passive.logged
  have runs : r' = (run c crew' candidates).run s := by rw [← run_parallelism valid pos]
  obtain ⟨worlds, alike⟩ := run_alike same plays plays' timing valid candidates s
  refine ⟨ledgers, ?_, ?_, ?_, ?_⟩
  · rw [runs, worlds]
  · intro times
    rw [runs, alike.snapshots_eq times]
  · intro sound
    obtain ⟨result, ok⟩ := exists_result_of_sound valid plays sound
    exact ⟨result, ok, runs ▸ alike.ok result ok⟩
  · intro batch handed fails
    have handed' : batch ∈ handedOut c crew' candidates s := by
      rwa [← handedOut_parallelism valid pos, ledgers]
    obtain ⟨e, failed, failure⟩ := failsWith_of_mem valid plays handed fails
    obtain ⟨e', failed', failure'⟩ := failsWith_of_mem valid plays' handed' fails
    exact ⟨e, e', failed, runs ▸ failed', failure, failure'⟩

/-- Two workers who hand in the first two reports of a batch in the wrong order. -/
def crossedReports (play : Outcomes α) : List Task → List (Report α)
  | t :: u :: rest => ⟨u, 1, play u⟩ :: ⟨t, 0, play t⟩ :: rest.map fun t => ⟨t, 0, play t⟩
  | tasks => tasks.map fun t => ⟨t, 0, play t⟩

omit [Scalar α] [RealFunctions α] in
theorem delivers_crossedReports (play : Outcomes α) (tasks : List Task) :
    Delivers 2 play tasks (crossedReports play tasks) := by
  match tasks with
  | [] | [_] => exact .inOrder (by decide) play _
  | t :: u :: rest =>
    have first : Pool.Step 2 play (Pool.start (t :: u :: rest)) ⟨u :: rest, [(0, t)], []⟩ :=
      .take (by decide) (by simp)
    have second : Pool.Step 2 play ⟨u :: rest, [(0, t)], []⟩ ⟨rest, [(1, u), (0, t)], []⟩ :=
      .take (by decide) (by simp)
    have third : Pool.Step 2 play ⟨rest, [(1, u), (0, t)], []⟩
        ⟨rest, [(0, t)], [⟨u, 1, play u⟩]⟩ := .handIn [] [(0, t)]
    have fourth : Pool.Step 2 play ⟨rest, [(0, t)], [⟨u, 1, play u⟩]⟩
        ⟨rest, [], [⟨u, 1, play u⟩, ⟨t, 0, play t⟩]⟩ := .handIn [] []
    exact .of_reach (by decide) ((((ReflTransGen.single first).tail second).tail third).tail fourth)

open Exact in
/-- A run whose reports come in order, and one whose reports do not. -/
theorem crossed_ending_eq :
    let c : Settings Rat := { Settings.standard with trials := 5, batchSize := 2 }
    let play : Outcomes Rat := fun t => .ok (some (.splat (t.trial : Rat)))
    let crossed := { Crew.inOrder play with
      perform := fun _ tasks => pure (crossedReports play tasks) }
    ∃ result, ((run c (.inOrder play) 2).run ()).1.ending = .ok result ∧
      ((run { c with parallelism := 2 } crossed 2).run ()).1.ending = .ok result := by
  intro c play crossed
  have valid : c.validate = .ok () := by decide +kernel
  have plays : (Crew.inOrder play).PlayedBy c.parallelism play :=
    Crew.playedBy_inOrder (by decide) play
  have plays' : crossed.PlayedBy 2 play := fun _ tasks _ => delivers_crossedReports play tasks
  have same : SameSurroundings (.inOrder play) crossed :=
    ⟨rfl, rfl, fun _ _ _ => rfl, fun _ _ => rfl⟩
  refine (ending_eq_of_schedules valid (by decide) plays plays' same
    (.inl (.inr fun _ _ => rfl)) 2 ()).2.2.2.1 ?_
  rintro batch - ⟨t, -, e, he⟩
  exact nomatch he

/-- A crew whose clock moves on by so much with every batch, for a caller who leaves after so many
reports.  The world counts the reports. -/
def Crew.ticking (play : Outcomes α) (tick patience : Nat) : Crew (StateM Nat) α where
  cancelled _ := return decide (patience ≤ (← get))
  perform _ tasks := pure (tasks.map fun t => ⟨t, 0, play t⟩)
  clock batch := pure (tick * batch)
  report _ := modify (· + 1)

open Exact in
/-- **The clock shows.**  Of three batches, played by the same workers in the same order, one is reported
while the clock stands still, and each one while more than the interval passes between them.  A caller who
leaves after two reports then leaves early, or not at all. -/
theorem clocks_show :
    let c : Settings Rat := { Settings.standard with trials := 3, batchSize := 1 }
    let play : Outcomes Rat := fun t => .ok (some (.splat (t.trial : Rat)))
    let ended (tick patience : Nat) := ((run c (.ticking play tick patience) 1).run 0).1
    c.validate = .ok () ∧
      (∀ tick patience, (Crew.ticking play tick patience).PlayedBy c.parallelism play) ∧
      (∀ patience, SameSurroundings (.ticking play 0 patience) (.ticking play 1000 patience)) ∧
      ((ended 0 9).snapshots.length = 2 ∧ (ended 1000 9).snapshots.length = 4) ∧
      (ended 0 2).ending.toOption.map Result.status = some .completed ∧
      (ended 1000 2).ending.toOption.map Result.status = some .interrupted := by
  intro c play ended
  refine ⟨by decide +kernel, fun _ _ _ tasks _ => .inOrder (by decide) play tasks,
    fun _ => ⟨rfl, rfl, fun _ _ _ => rfl, fun _ _ => rfl⟩, ?_, ?_, ?_⟩ <;> decide +kernel

end Backgammon.Rollout
