import Backgammon.Proofs.Rollout.Stages

/-!
# Proofs/Rollout/Ledger — the tasks that a run hands out

A crew can keep a **ledger** of the tasks that it is handed, batch by batch, beside its own world.  The
run is none the wiser.

* `Crew.logged` — the crew with its ledger.
* `handedOut` — the ledger of a run.
* `run_logged` — a run with a ledger is the run without.
-/

namespace Backgammon.Rollout

variable {σ τ α β : Type}

/-- An effect on one part of the world. -/
def alongside (x : StateM σ β) : StateM (σ × τ) β := fun w =>
  let r := (x.run w.1).run
  pure (r.1, (r.2, w.2))

/-- **The crew with a ledger** of the tasks that it is handed, one entry for a batch. -/
def Crew.logged (crew : Crew (StateM σ) α) : Crew (StateM (σ × List (List Task))) α where
  cancelled batch := alongside (crew.cancelled batch)
  perform batch tasks := do
    modify fun w => (w.1, w.2 ++ [tasks])
    alongside (crew.perform batch tasks)
  clock batch := alongside (crew.clock batch)
  report shot := alongside (crew.report shot)

section

variable {x : StateM σ β} {s s' : σ} {b : β} {t : τ} {w w' : σ × τ}

theorem alongside_run : (alongside x).run w = ((x.run w.1).1, ((x.run w.1).2, w.2)) := rfl

theorem run_of_alongside (h : (alongside x).run w = (b, w')) :
    x.run w.1 = (b, w'.1) ∧ w'.2 = w.2 := by
  rw [alongside_run] at h
  obtain ⟨rfl, rfl⟩ := Prod.mk.inj h
  exact ⟨rfl, rfl⟩

end

/-- A stage without its ledger. -/
def Stage.unlogged (x : Stage (σ × List (List Task)) α) : Stage σ α := ⟨x.left, x.state, x.world.1⟩

variable {c : Settings α} {crew : Crew (StateM σ) α} {x y : Stage (σ × List (List Task)) α}
  {reports : List (Report α)} {w : σ × List (List Task)} {r : Run α}

/-- A batch that is played goes into the ledger. -/
theorem Plays.unlogged (h : Plays c crew.logged x reports w) :
    Plays c crew x.unlogged reports w.1 ∧ w.2 = x.world.2 ++ [x.tasks c] := by
  obtain ⟨pos, w₁, ask, play⟩ := h
  obtain ⟨ask, hw₁⟩ := run_of_alongside ask
  obtain ⟨play, hw⟩ := run_of_alongside (w := (w₁.1, w₁.2 ++ [x.tasks c])) play
  exact ⟨⟨pos, w₁.1, ask, play⟩, hw.trans (congrArg (· ++ [x.tasks c]) hw₁)⟩

variable [Scalar α] [RealFunctions α]

/-- **The tasks that a run hands out**, batch by batch. -/
def handedOut (c : Settings α) (crew : Crew (StateM σ) α) (candidates : Nat) (s : σ) :
    List (List Task) :=
  ((run c crew.logged candidates).run (s, [])).2.2

theorem worldShown_logged (state : RunState α) (now : Nat) :
    worldShown c crew.logged state now w = (worldShown c crew state now w.1, w.2) := by
  rw [worldShown, worldShown]
  split <;> rfl

theorem Advance.unlogged (h : Advance c crew.logged x y) :
    Advance c crew x.unlogged y.unlogged ∧ y.world.2 = x.world.2 ++ [x.tasks c] := by
  obtain ⟨played, sound, whole, goOn, clock⟩ := h
  obtain ⟨played, hw⟩ := played.unlogged
  obtain ⟨clock, hw'⟩ := run_of_alongside clock
  rw [worldShown_logged]
  exact ⟨.mk played sound whole goOn clock, hw'.trans hw⟩

theorem finish_logged {state : RunState α} {status : Status} {w' : σ × List (List Task)}
    (h : (finish c crew.logged state status).run w = (r, w')) :
    (finish c crew state status).run w.1 = (r, w'.1) ∧ w'.2 = w.2 := by
  rw [finish_run] at h
  obtain ⟨rfl, rfl⟩ := Prod.mk.inj h
  exact ⟨rfl, rfl⟩

theorem Ends.unlogged (h : Ends c crew.logged x r w) : Ends c crew x.unlogged r w.1 := by
  cases h with
  | cancelled ask fin => exact .cancelled (run_of_alongside ask).1 (finish_logged fin).1
  | completed none_left ask fin =>
    exact .completed none_left (run_of_alongside ask).1 (finish_logged fin).1
  | failed played failed => exact .failed played.unlogged.1 failed
  | interrupted played sound cut fin =>
    exact .interrupted played.unlogged.1 sound cut (finish_logged fin).1
  | stopped played sound whole stop clock fin =>
    rw [worldShown_logged] at fin
    exact .stopped played.unlogged.1 sound whole stop (run_of_alongside clock).1
      (finish_logged fin).1

/-- **The ledger changes nothing.** -/
theorem run_logged (c : Settings α) (crew : Crew (StateM σ) α) (candidates : Nat)
    (w : σ × List (List Task)) :
    (run c crew candidates).run w.1 =
      (((run c crew.logged candidates).run w).1, ((run c crew.logged candidates).run w).2.1) := by
  cases valid : c.validate with
  | error e =>
    rw [run, run, valid]
    rfl
  | ok _ =>
    obtain ⟨last, reach, ends⟩ := exists_reaches_run valid crew.logged candidates w
    have unlogged : Reaches c crew (.first c candidates w.1) last.unlogged :=
      reach.lift Stage.unlogged fun _ _ step => step.unlogged.1
    exact unlogged.run_eq valid ends.unlogged

end Backgammon.Rollout
