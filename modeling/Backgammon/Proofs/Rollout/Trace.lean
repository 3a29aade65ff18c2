import Backgammon.Proofs.Rollout.Batch
import Backgammon.Proofs.Rollout.Ledger

/-!
# Proofs/Rollout/Trace — what passes between a run and its crew

    asked · played · timed · shown ▸ asked · played · timed ▸ ⋯ ▸ asked · shown

A crew can write down everything that it is asked and shown, beside its own world.  The run is none
the wiser, and what is written down tells how the run has gone: the contenders stand as the batches so
far have left them, and every snapshot shows them at such a moment.

* `Crew.traced`, `trace` — the crew with its record, and the record of a run.
* `run_traced` — a run with a record is the run without.
* `Settings.contendersAfter` — the contenders after some batches, taken in and checked in turn.
* `Shows` — snapshots that show the contenders after some of the batches.
* `Stage.Told`, `Stage.Told.advance` — the record tells where a stage stands, from batch to batch.
* `Failed`, `Closed`, `failed_or_closed` — the two ways in which a run ends, read off its record.
-/

namespace Backgammon.Rollout

variable {σ α β : Type}

/-- **What passes between a run and its crew.** -/
inductive Event (α : Type) where
  /-- The caller is asked whether the run is to end, and this is the answer. -/
  | asked (cancelled : Bool)
  /-- A batch is handed out, and these reports come back. -/
  | played (reports : List (Report α))
  | timed (now : Nat)
  | shown (shot : Snapshot α)

/-- The batches in a record. -/
def played (events : List (Event α)) : List (List (Report α)) :=
  events.filterMap fun
    | .played reports => some reports
    | _ => none

/-- The snapshots in a record. -/
def shown (events : List (Event α)) : List (Snapshot α) :=
  events.filterMap fun
    | .shown shot => some shot
    | _ => none

/-- An effect that leaves an entry in the record. -/
def noted (event : β → Event α) (x : StateM σ β) : StateM (σ × List (Event α)) β := do
  let b ← alongside x
  modify fun w => (w.1, w.2 ++ [event b])
  return b

/-- **The crew with a record** of all that it is asked and shown. -/
def Crew.traced (crew : Crew (StateM σ) α) : Crew (StateM (σ × List (Event α))) α where
  cancelled batch := noted .asked (crew.cancelled batch)
  perform batch tasks := noted .played (crew.perform batch tasks)
  clock batch := noted .timed (crew.clock batch)
  report shot := noted (fun _ => .shown shot) (crew.report shot)

section

variable {event : β → Event α} {x : StateM σ β} {w w' : σ × List (Event α)} {b : β}

theorem noted_run : (noted event x).run w =
    ((x.run w.1).1, ((x.run w.1).2, w.2 ++ [event (x.run w.1).1])) := rfl

theorem run_of_noted (h : (noted event x).run w = (b, w')) :
    x.run w.1 = (b, w'.1) ∧ w'.2 = w.2 ++ [event b] := by
  rw [noted_run] at h
  obtain ⟨rfl, rfl⟩ := Prod.mk.inj h
  exact ⟨rfl, rfl⟩

end

/-! ## The record of a batch -/

/-- A stage without its record. -/
def Stage.untraced (x : Stage (σ × List (Event α)) α) : Stage σ α := ⟨x.left, x.state, x.world.1⟩

variable {c : Settings α} {crew : Crew (StateM σ) α} {x y : Stage (σ × List (Event α)) α}
  {reports : List (Report α)} {w w' : σ × List (Event α)} {r : Run α}

theorem Plays.untraced (h : Plays c crew.traced x reports w) :
    Plays c crew x.untraced reports w.1 ∧
      w.2 = x.world.2 ++ [.asked false, .played reports] := by
  obtain ⟨pos, w₁, ask, play⟩ := h
  obtain ⟨ask, hw₁⟩ := run_of_noted ask
  obtain ⟨play, hw⟩ := run_of_noted play
  refine ⟨⟨pos, w₁.1, ask, play⟩, ?_⟩
  rw [hw, hw₁, List.append_assoc]
  rfl

variable [Scalar α] [RealFunctions α]

/-- The snapshot that is due after a batch, if one is. -/
def RunState.due (c : Settings α) (state : RunState α) (now : Nat) : List (Snapshot α) :=
  if reportDue c.progressInterval state.lastReport now then
    [snapshot c.antithetic false state.field]
  else []

theorem RunState.reported_shown (state : RunState α) (now : Nat) :
    (state.shown c now).reported.reverse = state.reported.reverse ++ state.due c now := by
  rw [shown, due]
  split
  · exact List.reverse_cons
  · exact (List.append_nil _).symm

/-- With no time between two reports a snapshot is due after every batch. -/
theorem RunState.due_eq (every : c.progressInterval = 0) (state : RunState α) (now : Nat) :
    state.due c now = [snapshot c.antithetic false state.field] := by
  refine if_pos ?_
  rw [every, reportDue]
  cases state.lastReport <;> simp

theorem worldShown_traced (state : RunState α) (now : Nat) :
    worldShown c crew.traced state now w =
      (worldShown c crew state now w.1, w.2 ++ (state.due c now).map .shown) := by
  rw [worldShown, worldShown, RunState.due]
  split
  · rfl
  · rw [List.map_nil, List.append_nil]

theorem finish_traced {state : RunState α} {status : Status}
    (h : (finish c crew.traced state status).run w = (r, w')) :
    (finish c crew state status).run w.1 = (r, w'.1) ∧
      w'.2 = w.2 ++ [.shown (snapshot c.antithetic true state.field)] := by
  rw [finish_run] at h
  obtain ⟨rfl, rfl⟩ := Prod.mk.inj h
  exact ⟨rfl, rfl⟩

theorem Advance.untraced (h : Advance c crew.traced x y) : Advance c crew x.untraced y.untraced := by
  obtain ⟨played, sound, whole, goOn, clock⟩ := h
  rw [worldShown_traced]
  exact .mk played.untraced.1 sound whole goOn (run_of_noted clock).1

theorem Ends.untraced (h : Ends c crew.traced x r w) : Ends c crew x.untraced r w.1 := by
  cases h with
  | cancelled ask fin => exact .cancelled (run_of_noted ask).1 (finish_traced fin).1
  | completed none_left ask fin =>
    exact .completed none_left (run_of_noted ask).1 (finish_traced fin).1
  | failed played failed => exact .failed played.untraced.1 failed
  | interrupted played sound cut fin =>
    exact .interrupted played.untraced.1 sound cut (finish_traced fin).1
  | stopped played sound whole stop clock fin =>
    rw [worldShown_traced] at fin
    exact .stopped played.untraced.1 sound whole stop (run_of_noted clock).1 (finish_traced fin).1

theorem Reaches.untraced (h : Reaches c crew.traced x y) : Reaches c crew x.untraced y.untraced :=
  h.lift Stage.untraced fun _ _ => Advance.untraced

/-- **What passes between a run and its crew**, from the start to the end. -/
def trace (c : Settings α) (crew : Crew (StateM σ) α) (candidates : Nat) (s : σ) :
    List (Event α) :=
  ((run c crew.traced candidates).run (s, [])).2.2

/-- **The record changes nothing.** -/
theorem run_traced (c : Settings α) (crew : Crew (StateM σ) α) (candidates : Nat)
    (w : σ × List (Event α)) :
    (run c crew candidates).run w.1 =
      (((run c crew.traced candidates).run w).1, ((run c crew.traced candidates).run w).2.1) := by
  cases valid : c.validate with
  | error e =>
    rw [run, run, valid]
    rfl
  | ok _ =>
    obtain ⟨last, reach, ends⟩ := exists_reaches_run valid crew.traced candidates w
    exact Reaches.run_eq valid reach.untraced ends.untraced

/-! ## The contenders after some batches -/

/-- **The contenders after some batches**, each taken in and checked before the next. -/
def Settings.contendersAfter (c : Settings α) (candidates : Nat)
    (batches : List (List (Report α))) : List (Contender α) :=
  batches.foldl
    (fun field reports => (c.stopping.check c.key (absorbAll c.antithetic field reports)).1)
    (List.replicate candidates .fresh)

theorem Settings.contendersAfter_concat (c : Settings α) (candidates : Nat)
    (batches : List (List (Report α))) (reports : List (Report α)) :
    c.contendersAfter candidates (batches ++ [reports]) =
      (c.stopping.check c.key (absorbAll c.antithetic (c.contendersAfter candidates batches)
        reports)).1 := by
  rw [contendersAfter, List.foldl_append]
  rfl

/-- **Snapshots of the contenders** after some of the batches, in turn; after every one of them if no
time need pass between two reports. -/
inductive Shows (c : Settings α) (candidates : Nat) :
    List (List (Report α)) → List (Snapshot α) → Prop
  | start : Shows c candidates [] []
  | shown {batches shots} (before : Shows c candidates batches shots) (reports : List (Report α)) :
    Shows c candidates (batches ++ [reports])
      (shots ++ [snapshot c.antithetic false (c.contendersAfter candidates (batches ++ [reports]))])
  | silent {batches shots} (before : Shows c candidates batches shots) (reports : List (Report α))
    (seldom : c.progressInterval ≠ 0) : Shows c candidates (batches ++ [reports]) shots

variable {candidates : Nat} {batches : List (List (Report α))} {shots : List (Snapshot α)}

theorem Shows.due {state : RunState α} (h : Shows c candidates batches shots)
    (field_eq : state.field = c.contendersAfter candidates (batches ++ [reports])) (now : Nat) :
    Shows c candidates (batches ++ [reports]) (shots ++ state.due c now) := by
  by_cases every : c.progressInterval = 0
  · rw [RunState.due_eq every, field_eq]
    exact h.shown reports
  · rw [RunState.due]
    split
    · rw [field_eq]
      exact h.shown reports
    · rw [List.append_nil]
      exact h.silent reports every

theorem Shows.unfinished (h : Shows c candidates batches shots) :
    ∀ shot ∈ shots, shot.finished = false := by
  induction h with
  | start => exact nofun
  | shown _ _ ih => exact List.forall_mem_append.2 ⟨ih, List.forall_mem_singleton.2 rfl⟩
  | silent _ _ _ ih => exact ih

/-- **With no time between two reports every batch has its snapshot**, right after its check. -/
theorem Shows.eq_map (h : Shows c candidates batches shots) (every : c.progressInterval = 0) :
    shots = (List.range batches.length).map fun k =>
      snapshot c.antithetic false (c.contendersAfter candidates (batches.take (k + 1))) := by
  induction h with
  | start => rfl
  | silent _ _ seldom => exact absurd every seldom
  | @shown batches shots _ reports ih =>
    have all : (batches ++ [reports]).take (batches.length + 1) = batches ++ [reports] :=
      List.take_of_length_le (by simp)
    rw [List.length_append, List.length_singleton, List.range_succ, List.map_append,
      List.map_singleton, all, ih]
    congr 1
    refine List.map_congr_left fun k hk => ?_
    rw [List.take_append_of_le_length (List.mem_range.1 hk)]

/-! ## Where a stage stands -/

/-- **A whole batch**: every trial of it was played to its end. -/
def whole (reports : List (Report α)) : Bool := reports.all fun r => (finished? r.outcome).isSome

omit [Scalar α] [RealFunctions α] in
theorem whole_iff : whole reports = true ↔ failure? reports = none ∧ anyInterrupted reports = false := by
  rw [whole, failure?, anyInterrupted, List.all_eq_true, List.findSome?_eq_none_iff,
    List.any_eq_false, ← forall₂_and]
  refine forall₂_congr fun r _ => ?_
  rcases r.outcome with e | _ | v <;> simp [finished?]

omit [Scalar α] [RealFunctions α] in
/-- The failure of a batch is the error of one of its trials. -/
theorem exists_error_of_failure? {e : RolloutError α}
    (h : failure? reports = some e) :
    ∃ p ∈ reports, ∃ e', p.outcome = .error e' ∧ e = .ofTrial p.worker e' := by
  obtain ⟨p, mem, hp⟩ := List.exists_of_findSome?_eq_some h
  rcases ended : p.outcome with e' | v
  · rw [ended] at hp
    exact ⟨p, mem, e', ended, (Option.some.inj hp).symm⟩
  · rw [ended] at hp
    cases hp

omit [Scalar α] [RealFunctions α] in
/-- A batch in which a trial fails has a failure. -/
theorem failure?_ne_none_of_error {reports : List (Report α)} {p : Report α} (mem : p ∈ reports)
    {e : TrialError} (failed : p.outcome = .error e) : failure? reports ≠ none := by
  intro sound
  have := List.findSome?_eq_none_iff.1 sound p mem
  rw [failed] at this
  cases this

omit [Scalar α] [RealFunctions α] in
theorem anyInterrupted_iff : anyInterrupted reports = true ↔ ∃ p ∈ reports, p.outcome = .ok none := by
  rw [anyInterrupted, List.any_eq_true]
  refine exists_congr fun p => and_congr_right fun _ => ?_
  rcases p.outcome with e | _ | v <;> simp

/-- **A record tells where a run stands**: all batches so far are whole, the contenders are what these
have left, the snapshots are written down in turn, and nobody has wanted the run to end. -/
structure Tells (c : Settings α) (candidates : Nat) (events : List (Event α)) (state : RunState α) :
    Prop where
  whole : ∀ reports ∈ played events, whole reports = true
  field_eq : state.field = c.contendersAfter candidates (played events)
  shown_eq : shown events = state.reported.reverse
  uncancelled : Event.asked true ∉ events
  shows : Shows c candidates (played events) (shown events)

/-- …and so does the record of a stage. -/
structure Stage.Told (c : Settings α) (candidates : Nat) (x : Stage (σ × List (Event α)) α) :
    Prop where
  left_le : x.left ≤ c.batches
  length_played : (played x.world.2).length = x.batch c
  tells : Tells c candidates x.world.2 x.state

section

omit [Scalar α] [RealFunctions α]

@[simp] theorem played_append (events events' : List (Event α)) :
    played (events ++ events') = played events ++ played events' := List.filterMap_append

@[simp] theorem shown_append (events events' : List (Event α)) :
    shown (events ++ events') = shown events ++ shown events' := List.filterMap_append

@[simp] theorem shown_map_shown (shots : List (Snapshot α)) : shown (shots.map .shown) = shots := by
  rw [shown, List.filterMap_map]
  exact List.filterMap_some

end

theorem Tells.start (c : Settings α) (candidates : Nat) :
    Tells c candidates [] ⟨List.replicate candidates .fresh, none, []⟩ where
  whole := nofun
  field_eq := rfl
  shown_eq := rfl
  uncancelled := nofun
  shows := .start

/-- **A whole batch more.** -/
theorem Tells.batch {x : Stage σ α} {events : List (Event α)} (h : Tells c candidates events x.state)
    (all : Rollout.whole reports = true) (now : Nat) :
    Tells c candidates
      (events ++ [.asked false, .played reports, .timed now] ++
        ((x.checked c reports).due c now).map .shown)
      ((x.checked c reports).shown c now) := by
  have batches : played (events ++ [.asked false, .played reports, .timed now] ++
      ((x.checked c reports).due c now).map .shown) = played events ++ [reports] := by
    simp [played]
  have shots : shown (events ++ [.asked false, .played reports, .timed now] ++
      ((x.checked c reports).due c now).map .shown) =
        shown events ++ (x.checked c reports).due c now := by
    rw [shown_append, shown_append, shown_map_shown]
    simp [shown]
  have field_eq : (x.checked c reports).field =
      c.contendersAfter candidates (played events ++ [reports]) := by
    rw [Settings.contendersAfter_concat, ← h.field_eq]
    rfl
  refine ⟨?_, ?_, ?_, ?_, ?_⟩
  · rw [batches]
    exact List.forall_mem_append.2 ⟨h.whole, List.forall_mem_singleton.2 all⟩
  · rw [RunState.field_shown, batches, field_eq]
  · rw [shots, h.shown_eq, RunState.reported_shown]
    rfl
  · simp [h.uncancelled]
  · rw [shots, batches]
    exact h.shows.due field_eq now

theorem Stage.Told.first (c : Settings α) (candidates : Nat) (s : σ) :
    (Stage.first c candidates (s, ([] : List (Event α)))).Told c candidates where
  left_le := Nat.le_refl _
  length_played := (Stage.batch_first ..).symm
  tells := .start c candidates

/-- **The record tells where a run stands, from batch to batch.** -/
theorem Stage.Told.advance (hx : x.Told c candidates) (step : Advance c crew.traced x y) :
    y.Told c candidates := by
  obtain @⟨reports, w, w', now, played, sound, uncut, -, clock⟩ := step
  have record : w'.2 = x.world.2 ++ [.asked false, .played reports, .timed now] := by
    rw [(run_of_noted clock).2, played.untraced.2, List.append_assoc]
    rfl
  have tells := hx.tells.batch (whole_iff.2 ⟨sound, uncut⟩) now
  rw [← record] at tells
  rw [worldShown_traced]
  refine ⟨(Nat.sub_le _ _).trans hx.left_le, ?_, tells⟩
  rw [Stage.batch, x.batch_succ c hx.left_le played.pos, ← hx.length_played]
  simp [record, Rollout.played]

/-! ## How a run ends -/

/-- **A run has failed**: a trial fails in its last batch, and nothing is asked or shown after it. -/
structure Failed (c : Settings α) (candidates : Nat) (events : List (Event α)) (r : Run α)
    (before : List (List (Report α))) (reports : List (Report α)) (e : RolloutError α) : Prop where
  played_eq : played events = before ++ [reports]
  whole : ∀ batch ∈ before, whole batch = true
  failed : failure? reports = some e
  last : events.getLast? = some (.played reports)
  shown_eq : shown events = r.snapshots
  shows : Shows c candidates before r.snapshots
  ending : r.ending = .error e

/-- **A run has come to a result**, after whole batches and perhaps one that was cut short. -/
structure Closed (c : Settings α) (candidates : Nat) (events : List (Event α)) (r : Run α)
    (batches : List (List (Report α))) (cut : Option (List (Report α))) (field : List (Contender α))
    (status : Status) (shots : List (Snapshot α)) : Prop where
  played_eq : played events = batches ++ cut.toList
  whole : ∀ batch ∈ batches, whole batch = true
  cut_short : ∀ batch ∈ cut, failure? batch = none ∧ anyInterrupted batch = true
  field_eq : field = cut.elim (c.contendersAfter candidates batches)
    (absorbAll c.antithetic (c.contendersAfter candidates batches))
  interrupted_iff : status = .interrupted ↔ Event.asked true ∈ events ∨ cut.isSome = true
  shows : Shows c candidates batches shots
  snapshots_eq : r.snapshots = shots ++ [snapshot c.antithetic true field]
  shown_eq : shown events = r.snapshots
  ending : r.ending = .ok ⟨field.map (·.result c.antithetic), status⟩

/-- The whole batches of a run that has a result come before the one that is cut short. -/
theorem Closed.filter_whole {events : List (Event α)} {r : Run α} {cut : Option (List (Report α))}
    {field : List (Contender α)} {status : Status}
    (h : Closed c candidates events r batches cut field status shots) :
    (played events).filter Rollout.whole = batches := by
  have uncounted : cut.toList.filter Rollout.whole = [] := by
    refine List.filter_eq_nil_iff.2 fun reports mem all => ?_
    have short := (h.cut_short reports (Option.mem_toList.1 mem)).2
    rw [(whole_iff.1 all).2] at short
    cases short
  rw [h.played_eq, List.filter_append, uncounted, List.append_nil, List.filter_eq_self]
  exact h.whole

/-- A run that is closed between two batches, whatever is asked before that. -/
theorem Tells.closed {events : List (Event α)} {state : RunState α}
    (h : Tells c candidates events state) (asked : List (Event α)) (nothing : played asked = [])
    (silent : shown asked = []) {status : Status}
    (interrupted_iff : status = .interrupted ↔ Event.asked true ∈ asked) :
    Closed c candidates (events ++ asked ++ [.shown (snapshot c.antithetic true state.field)])
      (state.close c status) (played events) none state.field status (shown events) := by
  have snapshots_eq : (state.close c status).snapshots =
      shown events ++ [snapshot c.antithetic true state.field] := by
    rw [h.shown_eq]
    exact List.reverse_cons
  refine ⟨?_, h.whole, nofun, h.field_eq, ?_, h.shows, snapshots_eq, ?_, rfl⟩
  · rw [played_append, played_append, nothing, List.append_nil]
    rfl
  · simp [interrupted_iff, h.uncancelled]
  · rw [snapshots_eq, shown_append, shown_append, silent, List.append_nil]
    rfl

/-- A run that is closed with a batch which is cut short. -/
theorem Tells.closed_cut {events : List (Event α)} {x : Stage σ α}
    (h : Tells c candidates events x.state) (sound : failure? reports = none)
    (cut : anyInterrupted reports = true) :
    Closed c candidates
      (events ++ [.asked false, .played reports] ++
        [.shown (snapshot c.antithetic true (x.absorbed c reports).field)])
      ((x.absorbed c reports).close c .interrupted) (played events) (some reports)
      (x.absorbed c reports).field .interrupted (shown events) := by
  have snapshots_eq : ((x.absorbed c reports).close c .interrupted).snapshots =
      shown events ++ [snapshot c.antithetic true (x.absorbed c reports).field] := by
    rw [h.shown_eq]
    exact List.reverse_cons
  refine ⟨?_, h.whole, ?_, ?_, ?_, h.shows, snapshots_eq, ?_, rfl⟩
  · simp [played]
  · rintro _ ⟨⟩
    exact ⟨sound, cut⟩
  · rw [Option.elim_some, ← h.field_eq]
    rfl
  · simp
  · simp [snapshots_eq, shown]

/-- **How a run ends at a stage**, read off its record: it fails with the batch that is handed out
there, or it comes to a result. -/
theorem Ends.failed_or_closed (h : Ends c crew.traced x r w) (hx : x.Told c candidates) :
    (∃ reports e, Plays c crew.traced x reports w ∧
        Failed c candidates w.2 r (played x.world.2) reports e) ∨
      ∃ batches cut field status shots, Closed c candidates w.2 r batches cut field status shots ∧
        (status = .interrupted → batches = played x.world.2) := by
  cases h with
  | cancelled ask fin =>
    rw [eq_close_of_finish fin, (finish_traced fin).2, (run_of_noted ask).2]
    exact .inr ⟨_, _, _, _, _, hx.tells.closed [_] rfl rfl (by simp), fun _ => rfl⟩
  | completed none_left ask fin =>
    rw [eq_close_of_finish fin, (finish_traced fin).2, (run_of_noted ask).2]
    exact .inr ⟨_, _, _, _, _, hx.tells.closed [_] rfl rfl (by simp), nofun⟩
  | @failed reports _ e played failed =>
    refine .inl ⟨reports, e, played, ?_, hx.tells.whole, failed, ?_, ?_, ?_, rfl⟩
    · simp [played.untraced.2, Rollout.played]
    · rw [played.untraced.2]
      simp
    · simp [played.untraced.2, shown, ← hx.tells.shown_eq]
    · rw [← hx.tells.shown_eq]
      exact hx.tells.shows
  | interrupted played sound cut fin =>
    rw [eq_close_of_finish fin, (finish_traced fin).2, played.untraced.2]
    exact .inr ⟨_, _, _, _, _, Tells.closed_cut (x := x.untraced) hx.tells sound cut, fun _ => rfl⟩
  | @stopped reports _ _ now reason _ _ played sound uncut stop clock fin =>
    rw [worldShown_traced] at fin
    have tells := hx.tells.batch (whole_iff.2 ⟨sound, uncut⟩) now
    have record := (finish_traced fin).2
    rw [(run_of_noted clock).2, played.untraced.2, List.append_assoc x.world.2] at record
    rw [eq_close_of_finish fin, record]
    have unasked : Status.stoppedEarly reason = .interrupted ↔ @Event.asked α true ∈ [] := by simp
    have closed := tells.closed [] rfl rfl unasked
    rw [List.append_nil] at closed
    exact .inr ⟨_, _, _, _, _, closed, nofun⟩

/-- **Every run is a chain of batches with an end**, of which its record tells. -/
theorem exists_told (valid : c.validate = .ok ()) (crew : Crew (StateM σ) α) (candidates : Nat)
    (s : σ) :
    ∃ last w, Reaches c crew.traced (.first c candidates (s, [])) last ∧ last.Told c candidates ∧
      Ends c crew.traced last ((run c crew candidates).run s).1 w ∧
      w.2 = trace c crew candidates s := by
  obtain ⟨last, ⟨reach, hlast⟩, ends⟩ := exists_last_stage valid crew.traced
    (P := fun x => Reaches c crew.traced (.first c candidates (s, [])) x ∧ x.Told c candidates)
    ⟨.refl, Stage.Told.first c candidates s⟩
    fun _ _ step hx => ⟨hx.1.tail step, hx.2.advance step⟩
  rw [run_traced c crew candidates (s, [])]
  exact ⟨last, _, reach, hlast, ends, rfl⟩

/-! ## The batches of a run -/

/-- **Batches that are dealt in turn**: each brings something of what its tasks may bring, and its tasks
are those of the contenders whom the batches before it have left live. -/
inductive InTurn (c : Settings α) (candidates : Nat)
    (brings : List Task → List (Report α) → Prop) : List (List (Report α)) → Prop
  | start : InTurn c candidates brings []
  | batch {batches : List (List (Report α))} {reports : List (Report α)}
    (before : InTurn c candidates brings batches) (left : batches.length < c.batches)
    (brought : brings
      (tasks (c.batchTrials batches.length) (c.contendersAfter candidates batches)) reports) :
    InTurn c candidates brings (batches ++ [reports])

variable {brings : List Task → List (Report α) → Prop}

theorem InTurn.exists_tasks (h : InTurn c candidates brings batches) :
    ∀ reports ∈ batches, ∃ tasks, brings tasks reports := by
  induction h with
  | start => exact nofun
  | batch _ _ brought ih =>
    exact List.forall_mem_append.2 ⟨ih, List.forall_mem_singleton.2 ⟨_, brought⟩⟩

section

variable (brought : ∀ batch tasks s, brings tasks ((crew.perform batch tasks).run s).1)
include brought

/-- A batch that is played at a stage is dealt after those before it. -/
theorem Plays.inTurn (h : Plays c crew.traced x reports w) (hx : x.Told c candidates)
    (before : InTurn c candidates brings (Rollout.played x.world.2)) :
    InTurn c candidates brings (Rollout.played x.world.2 ++ [reports]) := by
  have left : (Rollout.played x.world.2).length < c.batches := by
    rw [hx.length_played]
    exact x.batch_lt c hx.left_le h.pos
  refine before.batch left ?_
  obtain ⟨⟨-, s, -, play⟩, -⟩ := h.untraced
  have those := brought (x.batch c) (x.tasks c) s
  rwa [show (crew.perform (x.batch c) (x.tasks c)).run s = (reports, w.1) from play, Stage.tasks,
    ← hx.length_played, hx.tells.field_eq] at those

theorem Advance.inTurn (step : Advance c crew.traced x y) (hx : x.Told c candidates)
    (before : InTurn c candidates brings (played x.world.2)) :
    InTurn c candidates brings (played y.world.2) := by
  obtain @⟨reports, w, w', now, play, -, -, -, clock⟩ := step
  rw [worldShown_traced, (run_of_noted clock).2, play.untraced.2]
  simpa [played] using play.inTurn brought hx before

theorem Ends.inTurn (ends : Ends c crew.traced x r w) (hx : x.Told c candidates)
    (before : InTurn c candidates brings (played x.world.2)) :
    InTurn c candidates brings (played w.2) := by
  cases ends with
  | cancelled ask fin | completed _ ask fin =>
    rw [(finish_traced fin).2, (run_of_noted ask).2]
    simpa [played] using before
  | failed play _ =>
    rw [play.untraced.2]
    simpa [played] using play.inTurn brought hx before
  | interrupted play _ _ fin =>
    rw [(finish_traced fin).2, play.untraced.2]
    simpa [played] using play.inTurn brought hx before
  | stopped play _ _ _ clock fin =>
    rw [worldShown_traced] at fin
    rw [(finish_traced fin).2, (run_of_noted clock).2, play.untraced.2]
    simpa [played] using play.inTurn brought hx before

/-- **The batches of a run are dealt in turn.** -/
theorem inTurn_played (valid : c.validate = .ok ()) (candidates : Nat) (s : σ) :
    InTurn c candidates brings (played (trace c crew candidates s)) := by
  obtain ⟨last, ⟨told, before⟩, ends⟩ := exists_last_stage valid crew.traced
    (P := fun x => x.Told c candidates ∧ InTurn c candidates brings (played x.world.2))
    ⟨Stage.Told.first c candidates s, .start⟩
    fun _ _ step hx => ⟨hx.1.advance step, step.inTurn brought hx.1 hx.2⟩
  exact ends.inTurn brought told before

end

/-- What a pool may hand in for the tasks of a batch, when its trials may end in several ways. -/
def Brings (workers : Nat) (possible : Outcomes α → Prop) (tasks : List Task)
    (reports : List (Report α)) : Prop :=
  ∃ play, possible play ∧ Delivers workers play tasks reports

/-- …and each is what a pool may hand in, if a pool plays them. -/
theorem Crew.PlayedAmong.inTurn {workers : Nat} {possible : Outcomes α → Prop}
    (crew_plays : crew.PlayedAmong workers possible) (valid : c.validate = .ok ()) (candidates : Nat)
    (s : σ) :
    InTurn c candidates (Brings workers possible) (played (trace c crew candidates s)) := by
  refine inTurn_played ?_ valid candidates s
  exact crew_plays

/-- **A run fails with its last batch, or it comes to a result.** -/
theorem failed_or_closed (valid : c.validate = .ok ()) (crew : Crew (StateM σ) α) (candidates : Nat)
    (s : σ) :
    (∃ before reports e, Failed c candidates (trace c crew candidates s)
        ((run c crew candidates).run s).1 before reports e) ∨
      ∃ batches cut field status shots, Closed c candidates (trace c crew candidates s)
        ((run c crew candidates).run s).1 batches cut field status shots := by
  obtain ⟨last, w, -, hlast, ends, record⟩ := exists_told valid crew candidates s
  rw [← record]
  rcases ends.failed_or_closed hlast with ⟨reports, e, -, failed⟩ | ⟨_, _, _, _, _, closed, -⟩
  · exact .inl ⟨_, reports, e, failed⟩
  · exact .inr ⟨_, _, _, _, _, closed⟩

/-- **A run with a result** has come to it after whole batches. -/
theorem closed_of_ending {s : σ} {result : Result α}
    (ok : ((run c crew candidates).run s).1.ending = .ok result) :
    ∃ batches cut field status shots, Closed c candidates (trace c crew candidates s)
      ((run c crew candidates).run s).1 batches cut field status shots ∧
      result = ⟨field.map (·.result c.antithetic), status⟩ := by
  rcases failed_or_closed (validate_of_ending ok) crew candidates s with
    ⟨_, _, _, failed⟩ | ⟨batches, cut, field, status, shots, closed⟩
  · exact nomatch ok.symm.trans failed.ending
  · exact ⟨batches, cut, field, status, shots, closed,
      Except.ok.inj (ok.symm.trans closed.ending)⟩

end Backgammon.Rollout
