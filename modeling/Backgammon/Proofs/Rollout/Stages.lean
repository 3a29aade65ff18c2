import Backgammon.Rollout.Pool
import Mathlib.Logic.Relation

/-!
# Proofs/Rollout/Stages — a run as a chain of batches

    stage ──Advance──▸ stage ──▸ ⋯ ──▸ stage ──Ends──▸ run

Between two batches a run stands at a **stage**: so many batches are still to come, the contenders
have their results so far, and the crew has left its world in some state.  A crew lives in `StateM σ`,
where `σ` is all that the caller, the clock and the workers may look at or change.

* `Advance` — a batch is played, taken in and checked, and the run goes on.
* `Ends` — the five ways in which a run ends at a stage.
* `exists_reaches_run`, `Reaches.run_eq` — a run is a chain of batches with an end, and every such
  chain is the run.
* `exists_last_stage` — what every batch preserves holds at the stage where the run ends.
-/

namespace Backgammon.Rollout

open Relation

variable {σ α β γ : Type}

/-- **A run between two batches.** -/
structure Stage (σ α : Type) where
  left : Nat
  state : RunState α
  world : σ

/-- The stage at which a run over so many candidates begins. -/
def Stage.first [Scalar α] (c : Settings α) (candidates : Nat) (s : σ) : Stage σ α :=
  ⟨c.batches, ⟨List.replicate candidates .fresh, none, []⟩, s⟩

/-! ## Effects, one after the other -/

theorem run_bind_of_eq {x : StateM σ β} {f : β → StateM σ γ} {s s' : σ} {b : β}
    (h : x.run s = (b, s')) : (x >>= f).run s = (f b).run s' := by
  rw [StateT.run_bind, h]
  rfl

variable [Scalar α]

namespace Stage

variable (c : Settings α) (x : Stage σ α) (reports : List (Report α))

/-- The number of the batch to come. -/
def batch : Nat := c.batches - x.left

@[simp] theorem batch_first (candidates : Nat) (s : σ) :
    (first c candidates s).batch c = 0 := Nat.sub_self _

omit [Scalar α] in
theorem batch_lt (left_le : x.left ≤ c.batches) (pos : 0 < x.left) : x.batch c < c.batches := by
  rw [batch]
  omega

omit [Scalar α] in
/-- The batch after this one. -/
theorem batch_succ (left_le : x.left ≤ c.batches) (pos : 0 < x.left) :
    c.batches - (x.left - 1) = x.batch c + 1 := by
  rw [batch]
  omega

/-- The tasks of the batch to come. -/
def tasks : List Task := Rollout.tasks (c.batchTrials (x.batch c)) x.state.field

/-- The state once the reports of the batch are taken in. -/
def absorbed : RunState α :=
  { x.state with field := absorbAll c.antithetic x.state.field reports }

variable [RealFunctions α]

/-- The state once the stopping rules have been consulted as well. -/
def checked : RunState α :=
  { x.state with field := (c.stopping.check c.key (x.absorbed c reports).field).1 }

/-- The reason for the run to stop after the batch, if there is one. -/
def stopReason? : Option StopReason := (c.stopping.check c.key (x.absorbed c reports).field).2

end Stage

variable [RealFunctions α]

/-- The run of a state that is closed with a status. -/
def RunState.close (c : Settings α) (state : RunState α) (status : Status) : Run α where
  snapshots := (snapshot c.antithetic true state.field :: state.reported).reverse
  ending := .ok ⟨state.field.map (·.result c.antithetic), status⟩

variable {c : Settings α} {crew : Crew (StateM σ) α} {x y : Stage σ α}

theorem finish_run (state : RunState α) (status : Status) (s : σ) :
    (finish c crew state status).run s =
      (state.close c status, ((crew.report (snapshot c.antithetic true state.field)).run s).2) :=
  rfl

theorem eq_close_of_finish {state : RunState α} {status : Status} {s s' : σ} {r : Run α}
    (h : (finish c crew state status).run s = (r, s')) : r = state.close c status :=
  (Prod.mk.inj h).1.symm

/-- The state after a batch, when the clock shows `now`: with a snapshot more if one is due. -/
def RunState.shown (c : Settings α) (state : RunState α) (now : Nat) : RunState α :=
  if reportDue c.progressInterval state.lastReport now then
    { state with
      lastReport := some now
      reported := snapshot c.antithetic false state.field :: state.reported }
  else state

/-- …and the world, in which the caller may have acted on the snapshot. -/
def worldShown (c : Settings α) (crew : Crew (StateM σ) α) (state : RunState α) (now : Nat) (s : σ) :
    σ :=
  if reportDue c.progressInterval state.lastReport now then
    ((crew.report (snapshot c.antithetic false state.field)).run s).2
  else s

theorem reportIfDue_run {batch now : Nat} {s s' : σ} (state : RunState α)
    (h : (crew.clock batch).run s = (now, s')) :
    (reportIfDue c crew batch state).run s =
      (state.shown c now, worldShown c crew state now s') := by
  rw [reportIfDue, run_bind_of_eq h, RunState.shown, worldShown]
  split <;> rfl

@[simp] theorem RunState.field_shown (state : RunState α) (now : Nat) :
    (state.shown c now).field = state.field := by
  rw [shown]
  split <;> rfl

/-! ## What can happen at a stage -/

/-- **A batch is played**: the caller lets the run go on, and the crew hands these reports back. -/
structure Plays (c : Settings α) (crew : Crew (StateM σ) α) (x : Stage σ α)
    (reports : List (Report α)) (s : σ) : Prop where
  pos : 0 < x.left
  played : ∃ s₁, (crew.cancelled (x.batch c)).run x.world = (false, s₁) ∧
    (crew.perform (x.batch c) (x.tasks c)).run s₁ = (reports, s)

omit [Scalar α] [RealFunctions α] in
/-- What a pool that plays the batches hands back. -/
theorem Plays.delivers {workers : Nat} {play : Outcomes α} {reports : List (Report α)} {s : σ}
    (h : Plays c crew x reports s) (crew_plays : crew.PlayedBy workers play) :
    Delivers workers play (x.tasks c) reports := by
  obtain ⟨-, s₁, -, played⟩ := h
  have := crew_plays (x.batch c) (x.tasks c) s₁
  rwa [played] at this

/-- **A batch is played and the run goes on.** -/
inductive Advance (c : Settings α) (crew : Crew (StateM σ) α) : Stage σ α → Stage σ α → Prop
  | mk {x reports s s' now} (played : Plays c crew x reports s) (sound : failure? reports = none)
      (whole : anyInterrupted reports = false) (goOn : x.stopReason? c reports = none)
      (clock : (crew.clock (x.batch c)).run s = (now, s')) :
      Advance c crew x ⟨x.left - 1, (x.checked c reports).shown c now,
        worldShown c crew (x.checked c reports) now s'⟩

/-- **The run ends at a stage**: the caller has cancelled it, no batch is left, or a batch is played
in which a trial fails, a trial is interrupted, or after which a rule stops the run. -/
inductive Ends (c : Settings α) (crew : Crew (StateM σ) α) : Stage σ α → Run α → σ → Prop
  | cancelled {x s r s'} (ask : (crew.cancelled (x.batch c)).run x.world = (true, s))
      (fin : (finish c crew x.state .interrupted).run s = (r, s')) : Ends c crew x r s'
  | completed {x s r s'} (none_left : x.left = 0)
      (ask : (crew.cancelled (x.batch c)).run x.world = (false, s))
      (fin : (finish c crew x.state .completed).run s = (r, s')) : Ends c crew x r s'
  | failed {x reports s e} (played : Plays c crew x reports s) (failed : failure? reports = some e) :
      Ends c crew x ⟨x.state.reported.reverse, .error e⟩ s
  | interrupted {x reports s r s'} (played : Plays c crew x reports s)
      (sound : failure? reports = none) (cut : anyInterrupted reports = true)
      (fin : (finish c crew (x.absorbed c reports) .interrupted).run s = (r, s')) :
      Ends c crew x r s'
  | stopped {x reports s s₁ now reason r s'} (played : Plays c crew x reports s)
      (sound : failure? reports = none) (whole : anyInterrupted reports = false)
      (stop : x.stopReason? c reports = some reason)
      (clock : (crew.clock (x.batch c)).run s = (now, s₁))
      (fin : (finish c crew ((x.checked c reports).shown c now) (.stoppedEarly reason)).run
        (worldShown c crew (x.checked c reports) now s₁) = (r, s')) : Ends c crew x r s'

/-- The rest of a run, from a stage on. -/
def Stage.rest (c : Settings α) (crew : Crew (StateM σ) α) (x : Stage σ α) : Run α × σ :=
  (runFrom c crew x.left x.state).run x.world

/-- What becomes of a batch once it is played, as the loop has it. -/
def afterPlay (c : Settings α) (crew : Crew (StateM σ) α) (x : Stage σ α)
    (reports : List (Report α)) : StateM σ (Run α) :=
  match failure? reports with
  | some e => return { snapshots := x.state.reported.reverse, ending := .error e }
  | none =>
    if anyInterrupted reports then finish c crew (x.absorbed c reports) .interrupted
    else do
      let state ← reportIfDue c crew (x.batch c) (x.checked c reports)
      match x.stopReason? c reports with
      | some reason => finish c crew state (.stoppedEarly reason)
      | none => runFrom c crew (x.left - 1) state

theorem rest_of_plays {reports : List (Report α)} {s : σ} (h : Plays c crew x reports s) :
    x.rest c crew = (afterPlay c crew x reports).run s := by
  obtain ⟨left, state, world⟩ := x
  obtain ⟨pos, s₁, ask, play⟩ := h
  obtain ⟨left, rfl⟩ := Nat.exists_eq_succ_of_ne_zero (Nat.ne_of_gt pos)
  rw [Stage.rest, runFrom]
  exact (run_bind_of_eq ask).trans (run_bind_of_eq play)

theorem Advance.rest_eq (h : Advance c crew x y) : x.rest c crew = y.rest c crew := by
  obtain ⟨played, sound, whole, goOn, clock⟩ := h
  rw [rest_of_plays played, afterPlay, sound]
  simp only [whole, goOn]
  exact run_bind_of_eq (reportIfDue_run _ clock)

theorem Ends.rest_eq {r : Run α} {s : σ} (h : Ends c crew x r s) : x.rest c crew = (r, s) := by
  cases h with
  | cancelled ask fin =>
    rw [Stage.rest, runFrom.eq_def]
    exact (run_bind_of_eq ask).trans fin
  | completed none_left ask fin =>
    obtain ⟨left, state, world⟩ := x
    obtain rfl := none_left
    rw [Stage.rest, runFrom]
    exact (run_bind_of_eq ask).trans fin
  | failed played failed =>
    rw [rest_of_plays played, afterPlay, failed]
    rfl
  | interrupted played sound cut fin =>
    rw [rest_of_plays played, afterPlay, sound]
    simp only [cut]
    exact fin
  | stopped played sound whole stop clock fin =>
    rw [rest_of_plays played, afterPlay, sound]
    simp only [whole, stop]
    exact (run_bind_of_eq (reportIfDue_run _ clock)).trans fin

/-- **Nothing else can happen**: at every stage the run goes on or ends. -/
theorem advance_or_ends (c : Settings α) (crew : Crew (StateM σ) α) (x : Stage σ α) :
    (∃ y, Advance c crew x y ∧ x.left = y.left + 1) ∨ ∃ r s, Ends c crew x r s := by
  rcases ask : (crew.cancelled (x.batch c)).run x.world with ⟨asked, s₁⟩
  cases asked with
  | true => exact .inr ⟨_, _, .cancelled ask (finish_run _ _ _)⟩
  | false =>
    by_cases hx : x.left = 0
    · exact .inr ⟨_, _, .completed hx ask (finish_run _ _ _)⟩
    rcases play : (crew.perform (x.batch c) (x.tasks c)).run s₁ with ⟨reports, s₂⟩
    have played : Plays c crew x reports s₂ := ⟨Nat.pos_of_ne_zero hx, s₁, ask, play⟩
    cases failed : failure? reports with
    | some e => exact .inr ⟨_, _, .failed played failed⟩
    | none =>
      cases cut : anyInterrupted reports with
      | true => exact .inr ⟨_, _, .interrupted played failed cut (finish_run _ _ _)⟩
      | false =>
        rcases clock : (crew.clock (x.batch c)).run s₂ with ⟨now, s₃⟩
        cases stop : x.stopReason? c reports with
        | some reason => exact .inr ⟨_, _, .stopped played failed cut stop clock (finish_run _ _ _)⟩
        | none => exact .inl ⟨_, .mk played failed cut stop clock, by simp only; omega⟩

/-! ## Runs and chains -/

/-- One stage is reached from another. -/
abbrev Reaches (c : Settings α) (crew : Crew (StateM σ) α) : Stage σ α → Stage σ α → Prop :=
  ReflTransGen (Advance c crew)

theorem Reaches.rest_eq (h : Reaches c crew x y) : x.rest c crew = y.rest c crew := by
  induction h with
  | refl => rfl
  | tail _ step ih => exact ih.trans step.rest_eq

/-- **Every run comes to an end**: from every stage a chain of batches leads to one where it does. -/
theorem exists_reaches_ends (c : Settings α) (crew : Crew (StateM σ) α) (x : Stage σ α) :
    ∃ y r s, Reaches c crew x y ∧ Ends c crew y r s := by
  induction hn : x.left generalizing x with
  | zero =>
    obtain ⟨y, -, hy⟩ | ⟨r, s, ends⟩ := advance_or_ends c crew x
    · omega
    · exact ⟨x, r, s, .refl, ends⟩
  | succ n ih =>
    obtain ⟨y, step, hy⟩ | ⟨r, s, ends⟩ := advance_or_ends c crew x
    · obtain ⟨z, r, s, reach, ends⟩ := ih y (by omega)
      exact ⟨z, r, s, .head step reach, ends⟩
    · exact ⟨x, r, s, .refl, ends⟩

/-- A run that has a result has been allowed by its settings. -/
theorem validate_of_ending {candidates : Nat} {s : σ} {result : Result α}
    (ok : ((run c crew candidates).run s).1.ending = .ok result) : c.validate = .ok () := by
  cases valid : c.validate with
  | ok _ => rfl
  | error e =>
    rw [run, valid] at ok
    exact nomatch ok

/-- A run starts at its first stage. -/
theorem run_eq_rest (valid : c.validate = .ok ()) (crew : Crew (StateM σ) α) (candidates : Nat)
    (s : σ) : (run c crew candidates).run s = (Stage.first c candidates s).rest c crew := by
  rw [run, valid]
  rfl

/-- **A chain of batches with an end is the run.** -/
theorem Reaches.run_eq (valid : c.validate = .ok ()) {candidates : Nat} {s s' : σ} {r : Run α}
    (reach : Reaches c crew (.first c candidates s) x) (ends : Ends c crew x r s') :
    (run c crew candidates).run s = (r, s') := by
  rw [run_eq_rest valid, reach.rest_eq, ends.rest_eq]

/-- **Every run is a chain of batches with an end.** -/
theorem exists_reaches_run (valid : c.validate = .ok ()) (crew : Crew (StateM σ) α)
    (candidates : Nat) (s : σ) :
    ∃ last, Reaches c crew (.first c candidates s) last ∧
      Ends c crew last ((run c crew candidates).run s).1 ((run c crew candidates).run s).2 := by
  obtain ⟨last, r, s', reach, ends⟩ := exists_reaches_ends c crew (.first c candidates s)
  rw [reach.run_eq valid ends]
  exact ⟨last, reach, ends⟩

/-- **What holds at the start and is kept by every batch holds where the run ends.** -/
theorem exists_last_stage (valid : c.validate = .ok ()) (crew : Crew (StateM σ) α)
    {candidates : Nat} {s : σ} {P : Stage σ α → Prop} (start : P (.first c candidates s))
    (keep : ∀ x y, Advance c crew x y → P x → P y) :
    ∃ last, P last ∧ Ends c crew last ((run c crew candidates).run s).1
      ((run c crew candidates).run s).2 := by
  obtain ⟨last, reach, ends⟩ := exists_reaches_run valid crew candidates s
  refine ⟨last, ?_, ends⟩
  clear ends
  induction reach with
  | refl => exact start
  | tail _ step ih => exact keep _ _ step ih

end Backgammon.Rollout
