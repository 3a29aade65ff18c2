import Backgammon.Proofs.Exact
import Backgammon.Proofs.Rollout.Companions
import Backgammon.Proofs.Rollout.Trace

/-!
# Proofs/Rollout/Faults — a run fails as a whole or not at all

    incident ──▸ error of the trial ──▸ failure of the batch ──▸ end of the run

A trial fails when the evaluator or the dice do, or break down.  One such trial ends the run with its
batch, whatever else the batch has brought; nothing of it is taken in, checked or shown.

* `Arena.watched` — an arena that writes down what goes wrong.
* `Explains` — a trial ends with the error of the one incident it has met, or has met none.
* `explains_play` — every trial is explained so.
* `Discards` — a run comes to the same end whatever else a failing batch has brought, and whatever the
  stopping rule.
* `fails_as_a_whole` — when a run fails, how, and with what.
-/

namespace Backgammon

namespace Rollout

variable {σ τ α β γ : Type}

/-! ## What goes wrong in a trial -/

/-- **Something goes wrong in a trial**: the evaluator fails or breaks down, or the dice do. -/
inductive Incident where
  | evaluator (fault : Fault)
  | dice (fault : Fault)

/-- How a trial ends in which something goes wrong. -/
def Incident.error : Incident → TrialError
  | .evaluator fault => fault.ofEvaluator
  | .dice fault => fault.ofDice

/-- **A trial ends with the error of the one incident it has met.**  Without an incident it has no
error, unless it does not end. -/
inductive Explains : Except TrialError β → List Incident → Prop
  | played (b : β) : Explains (.ok b) []
  | incident (i : Incident) : Explains (.error i.error) [i]
  | unfinished : Explains (.error .unfinished) []

/-- Something that may fail, and writes it down if it does. -/
def watching (incident : Fault → Incident) (x : ExceptT Fault (StateM σ) β) :
    ExceptT Fault (StateM (σ × List Incident)) β := ExceptT.mk do
  let outcome ← alongside x.run
  match outcome with
  | .ok b => return .ok b
  | .error fault =>
    modify fun w => (w.1, w.2 ++ [incident fault])
    return .error fault

theorem watching_run_ok {incident : Fault → Incident} {x : ExceptT Fault (StateM σ) β} {w w' : σ}
    {b : β} (h : x.run.run w = (.ok b, w')) (log : List Incident) :
    (watching incident x).run.run (w, log) = (.ok b, (w', log)) := by
  have beside : (alongside x.run).run (w, log) = (.ok b, (w', log)) := by rw [alongside_run, h]
  exact run_bind_of_eq beside

theorem watching_run_error {incident : Fault → Incident} {x : ExceptT Fault (StateM σ) β}
    {w w' : σ} {fault : Fault} (h : x.run.run w = (.error fault, w')) (log : List Incident) :
    (watching incident x).run.run (w, log) = (.error fault, (w', log ++ [incident fault])) := by
  have beside : (alongside x.run).run (w, log) = (.error fault, (w', log)) := by
    rw [alongside_run, h]
  exact run_bind_of_eq beside

/-- **A run beside one that writes down what goes wrong**: they come to the same, and what is written
down explains it. -/
def watches (σ : Type) : Lifting (StateM σ) (StateM (σ × List Incident)) where
  Rel x x' := ∀ w log, ∃ incidents,
    x'.run.run (w, log) = ((x.run.run w).1, ((x.run.run w).2, log ++ incidents)) ∧
      Explains (x.run.run w).1 incidents
  pure b w log := ⟨[], by rw [List.append_nil]; rfl, .played b⟩
  unfinished w log := ⟨[], by rw [List.append_nil]; rfl, .unfinished⟩
  bind {β γ x x' f f'} hx hf w log := by
    obtain ⟨incidents, run_eq, explained⟩ := hx w log
    rw [ExceptT.run_bind, ExceptT.run_bind, StateT.run_bind, StateT.run_bind, run_eq]
    generalize x.run.run w = ran at explained ⊢
    obtain ⟨outcome, s⟩ := ran
    cases explained with
    | played b =>
      rw [List.append_nil]
      exact hf b s log
    | incident i => exact ⟨[i], rfl, .incident i⟩
    | unfinished => exact ⟨[], rfl, .unfinished⟩

variable [Scalar α] {δ Board Move : Type}

/-- **An arena that writes down what goes wrong.** -/
def Arena.watched (a : Arena (StateM τ) δ α Board Move) :
    Arena (StateM (τ × List Incident)) δ α Board Move where
  game := a.game
  evaluator board s c := watching .evaluator (a.evaluator board s c)
  met := a.met
  settings := a.settings
  roll d := watching .dice (a.roll d)
  interrupted ply := alongside (a.interrupted ply)

/-- Faults are explained when they are told as errors of the trial. -/
theorem rel_adapt_watching {f : Fault → TrialError} {incident : Fault → Incident}
    (told : ∀ fault, f fault = (incident fault).error) (x : ExceptT Fault (StateM τ) β) :
    (watches τ).Rel (ExceptT.adapt f x) (ExceptT.adapt f (watching incident x)) := by
  intro w log
  have adapt_run {σ : Type} (y : ExceptT Fault (StateM σ) β) (s : σ) :
      (ExceptT.adapt f y).run.run s = ((y.run.run s).1.mapError f, (y.run.run s).2) := rfl
  rw [adapt_run, adapt_run]
  rcases ran : x.run.run w with ⟨fault | b, w'⟩
  · rw [watching_run_error ran]
    refine ⟨[incident fault], rfl, ?_⟩
    rw [Except.mapError, told]
    exact .incident _
  · rw [watching_run_ok ran]
    exact ⟨[], by rw [List.append_nil], .played b⟩

theorem companions_watched (a : Arena (StateM τ) δ α Board Move) :
    Companions (watches τ) a a.watched where
  game_eq := rfl
  met_eq := rfl
  settings_eq := rfl
  evaluate board s c :=
    (watches τ).bind (rel_adapt_watching (by rintro (_ | _) <;> rfl) _)
      fun v => (watches τ).pure v.repaired
  draw d := rel_adapt_watching (by rintro (_ | _) <;> rfl) _

/-- **Every trial is explained**: it goes as it does unwatched, and ends with the error of the one
incident that it meets. -/
theorem explains_play (a : Arena (StateM τ) δ α Board Move) (horizon : Nat) (board : Board)
    (stakes : Stakes) (dice : δ) (w : τ) :
    ∃ incidents, (a.watched.play horizon board stakes dice).run.run (w, []) =
        (((a.play horizon board stakes dice).run.run w).1,
          (((a.play horizon board stakes dice).run.run w).2, incidents)) ∧
      Explains ((a.play horizon board stakes dice).run.run w).1 incidents :=
  (companions_watched a).play
    (fun ply w log => ⟨[], by rw [List.append_nil]; rfl, .played _⟩) horizon board stakes dice w []

/-- **How a trial of a candidate ends** in some world, and what it meets. -/
def Arena.TrialEnds (a : Arena (StateM τ) δ α Board Move) (start : Nat → δ) (horizon : Nat)
    (candidates : Array (Candidate Board)) (t : Task)
    (outcome : Except TrialError (Option (Equities α))) (incidents : List Incident) : Prop :=
  ∃ w w', ((a.perform start horizon candidates t).run w).1.outcome = outcome ∧
    (a.watched.perform start horizon candidates t).run (w, []) = (⟨t, 0, outcome⟩, (w', incidents))

theorem exists_trialEnds (a : Arena (StateM τ) δ α Board Move) (start : Nat → δ) (horizon : Nat)
    (candidates : Array (Candidate Board)) (world : Task → τ) (t : Task) :
    ∃ incidents, Explains (a.outcomesIn start horizon candidates world t) incidents ∧
      a.TrialEnds start horizon candidates t (a.outcomesIn start horizon candidates world t)
        incidents := by
  cases seated : candidates[t.candidate]? with
  | none =>
    have none_played : a.outcomesIn start horizon candidates world t = .ok none := by
      rw [Arena.outcomesIn, Arena.perform, seated]
      rfl
    rw [none_played]
    refine ⟨[], .played none, world t, world t, none_played, ?_⟩
    rw [Arena.perform, seated]
    rfl
  | some x =>
    obtain ⟨incidents, watched, explained⟩ :=
      explains_play a horizon x.board x.stakes (start t.trial) (world t)
    have played : a.outcomesIn start horizon candidates world t =
        ((a.play horizon x.board x.stakes (start t.trial)).run.run (world t)).1 := by
      rw [Arena.outcomesIn, Arena.perform, seated]
      rfl
    rw [played]
    refine ⟨incidents, explained, world t,
      ((a.play horizon x.board x.stakes (start t.trial)).run.run (world t)).2, played, ?_⟩
    rw [Arena.perform, seated]
    exact run_bind_of_eq watched

/-! ## What becomes of a failing batch -/

variable [RealFunctions α] {c : Settings α} {crew : Crew (StateM σ) α} {candidates : Nat}

/-- **Nothing of a failing batch counts.**  From the stage at which it is handed out, a run comes to
the same end under whatever stopping rule, and whatever else the batch brings with the failure. -/
structure Discards (c : Settings α) (crew : Crew (StateM σ) α) (x : Stage σ α)
    (reports : List (Report α)) (e : RolloutError α) (r : Run α) : Prop where
  played : ∃ s, Plays c crew x reports s
  same : ∀ (rule : StoppingRule α) (crew' : Crew (StateM σ) α) reports' s,
    Plays { c with stopping := rule } crew' x reports' s → failure? reports' = some e →
      (x.rest { c with stopping := rule } crew').1 = r

theorem discards_of_plays {x : Stage σ α} {reports : List (Report α)} {s : σ} {e : RolloutError α}
    (played : Plays c crew x reports s) (failed : failure? reports = some e) :
    Discards c crew x reports e (x.rest c crew).1 where
  played := ⟨s, played⟩
  same rule crew' reports' s' played' failed' := by
    rw [rest_of_plays played', rest_of_plays played, afterPlay, afterPlay, failed, failed']
    rfl

/-- **A run that fails comes to its end with the batch that fails.** -/
theorem exists_discards (valid : c.validate = .ok ()) {s : σ} {e : RolloutError α}
    (failed : ((run c crew candidates).run s).1.ending = .error e) :
    ∃ x before reports, Failed c candidates (trace c crew candidates s)
        ((run c crew candidates).run s).1 before reports e ∧
      Reaches c crew (.first c candidates s) x ∧
      Discards c crew x reports e ((run c crew candidates).run s).1 := by
  obtain ⟨last, w, reach, told, ends, record⟩ := exists_told valid crew candidates s
  rw [← record]
  rcases ends.failed_or_closed told with ⟨reports, e', play, ended⟩ | ⟨_, _, _, _, _, closed, -⟩
  · obtain rfl : e' = e := Except.error.inj (ended.ending.symm.trans failed)
    refine ⟨last.untraced, _, reports, ended, reach.untraced, ?_⟩
    rw [run_eq_rest valid, show (Stage.first c candidates s).rest c crew =
      last.untraced.rest c crew from reach.untraced.rest_eq]
    exact discards_of_plays play.untraced.1 ended.failed
  · exact nomatch closed.ending.symm.trans failed

/-- **When a run fails**: just when a trial of a batch that it has handed out has an error. -/
theorem exists_error_iff (valid : c.validate = .ok ()) (crew : Crew (StateM σ) α) (candidates : Nat)
    (s : σ) :
    (∃ e, ((run c crew candidates).run s).1.ending = .error e) ↔
      ∃ reports ∈ played (trace c crew candidates s), ∃ p ∈ reports, ∃ e, p.outcome = .error e := by
  rcases failed_or_closed valid crew candidates s with
    ⟨before, reports, e, ended⟩ | ⟨batches, cut, field, status, shots, closed⟩
  · obtain ⟨p, hp, e', failed, -⟩ := exists_error_of_failure? ended.failed
    have last : reports ∈ played (trace c crew candidates s) := by simp [ended.played_eq]
    exact iff_of_true ⟨e, ended.ending⟩ ⟨reports, last, p, hp, e', failed⟩
  · refine iff_of_false ?_ ?_
    · rintro ⟨e, failed⟩
      exact nomatch closed.ending.symm.trans failed
    rintro ⟨reports, mem, p, hp, e, failed⟩
    refine absurd ?_ (failure?_ne_none_of_error hp failed)
    rw [closed.played_eq, List.mem_append] at mem
    rcases mem with mem | mem
    · exact (whole_iff.1 (closed.whole reports mem)).1
    · exact (closed.cut_short reports (Option.mem_toList.1 mem)).1

/-- **A run fails as a whole or not at all.**  It fails just when a trial of a batch that it has handed
out has an error, which is that of the one thing that went wrong in it; and it fails with such an error
of its last batch.  Nothing is asked or shown after that batch, nothing of it but the failure counts, and
the snapshots before it are of the whole batches before.

What can go wrong is the evaluator or the dice.  The rules of the game and the match equity are functions
that have an answer for everything, so that no incident stands for a breakdown of theirs; one would end
the trial, and with it the run, as a breakdown of the evaluator does. -/
theorem fails_as_a_whole (a : Arena (StateM τ) δ α Board Move) (start : Nat → δ) (horizon : Nat)
    (pool : Array (Candidate Board)) (valid : a.settings.validate = .ok ()) {workers : Nat}
    (crew_plays : crew.PlayedAmong workers
      fun play => ∃ world, play = a.outcomesIn start horizon pool world) (s : σ) :
    let r := ((run a.settings crew pool.size).run s).1
    let events := trace a.settings crew pool.size s
    (∀ reports ∈ played events, ∀ p ∈ reports, p.worker < workers ∧
      ∃ incidents, Explains p.outcome incidents ∧
        a.TrialEnds start horizon pool p.task p.outcome incidents) ∧
    ((∃ e, r.ending = .error e) ↔
      ∃ reports ∈ played events, ∃ p ∈ reports, ∃ e, p.outcome = .error e) ∧
    ∀ e, r.ending = .error e → ∃ before reports,
      played events = before ++ [reports] ∧ (∀ batch ∈ before, whole batch = true) ∧
      (∃ p ∈ reports, ∃ e', p.outcome = .error e' ∧ e = .ofTrial p.worker e') ∧
      events.getLast? = some (.played reports) ∧
      shown events = r.snapshots ∧ Shows a.settings pool.size before r.snapshots ∧
      (∀ shot ∈ r.snapshots, shot.finished = false) ∧
      ∃ x, Reaches a.settings crew (.first a.settings pool.size s) x ∧
        Discards a.settings crew x reports e r := by
  intro r events
  refine ⟨fun reports mem p hp => ?_, exists_error_iff valid crew pool.size s, fun e failed => ?_⟩
  · obtain ⟨tasks, play, ⟨world, rfl⟩, delivered⟩ :=
      (Crew.PlayedAmong.inTurn crew_plays valid pool.size s).exists_tasks reports mem
    rw [delivered.outcome_eq hp]
    exact ⟨delivered.worker_lt hp, exists_trialEnds a start horizon pool world p.task⟩
  · obtain ⟨x, before, reports, ended, reach, discards⟩ := exists_discards valid failed
    exact ⟨before, reports, ended.played_eq, ended.whole, exists_error_of_failure? ended.failed,
      ended.last, ended.shown_eq, ended.shows, ended.shows.unfinished, x, reach, discards⟩

/-! ### Dice that run out -/

/-- Games of one roll, with dice that know the number of their trial and fail in the last of three.  The
world is whether the user interrupts. -/
def outOfDice : Arena (StateM Bool) Nat Rat Nat Unit where
  game :=
    { legalMoves := fun _ _ => [()]
      play := fun n _ => n - 1
      pass := id
      outcome? := fun n => if n = 0 then some ⟨.opponent, .single⟩ else none }
  evaluator _ _ _ := pure .zero
  met := ⟨fun _ _ _ => 1 / 2⟩
  settings := { Settings.standard with trials := 3, batchSize := 3, cubeful := false }
  roll n := if n = 2 then throw (.failed "no dice") else pure (⟨1, 2⟩, n)
  interrupted _ := get

open Exact in
/-- Of three trials the first is played to its end, the second is interrupted, and the third fails the
run. -/
theorem outOfDice_fails :
    let pool : Array (Candidate Nat) := #[⟨1, .money .zero⟩]
    let crew := Crew.inOrder (outOfDice.outcomesIn id 4 pool fun t => decide (t.trial = 1))
    let r := ((run outOfDice.settings crew 1).run ()).1
    ∃ e reports, r.ending = .error e ∧ r.snapshots = [] ∧
      played (trace outOfDice.settings crew 1 ()) = [reports] ∧
      reports.map (fun p => (finished? p.outcome).isSome) = [true, false, false] ∧
      anyInterrupted reports = true ∧
      ∃ p ∈ reports, ∃ e', p.outcome = .error e' ∧ e = .ofTrial p.worker e' := by
  intro pool crew r
  have crew_plays : crew.PlayedAmong 4 fun play => ∃ world,
      play = outOfDice.outcomesIn id 4 pool world :=
    (Crew.playedBy_inOrder (by decide) _).among ⟨_, rfl⟩
  have valid : outOfDice.settings.validate = .ok () := by decide +kernel
  obtain ⟨-, fails_iff, how⟩ := fails_as_a_whole outOfDice id 4 pool valid crew_plays ()
  have batches : (played (trace outOfDice.settings crew 1 ())).map (fun reports =>
      (reports.map fun p => (finished? p.outcome).isSome, anyInterrupted reports,
        (failure? reports).isSome)) = [([true, false, false], true, true)] := by decide +kernel
  obtain ⟨reports, one, facts⟩ := List.map_eq_singleton_iff.1 batches
  obtain ⟨finished, interrupted, failed⟩ := by simpa only [Prod.mk.injEq] using facts
  obtain ⟨e₀, he₀⟩ := Option.isSome_iff_exists.1 failed
  obtain ⟨p, hp, e', ended, -⟩ := exists_error_of_failure? he₀
  obtain ⟨e, ending⟩ := fails_iff.2 ⟨reports, by simp [pool, one], p, hp, e', ended⟩
  obtain ⟨before, last, all, -, which, -⟩ := how e ending
  have same : before ++ [last] = [] ++ [reports] := all.symm.trans one
  obtain ⟨rfl, rfl⟩ := List.append_singleton_inj.1 same
  have unshown : r.snapshots = [] := List.length_eq_zero_iff.1 (by decide +kernel)
  exact ⟨e, last, ending, unshown, one, finished, interrupted, which⟩

end Rollout

end Backgammon
