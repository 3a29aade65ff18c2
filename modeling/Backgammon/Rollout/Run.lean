import Backgammon.Rollout.Trial

/-!
# Rollout/Run — trials in batches, until they run out or a rule stops them

Every live candidate gets the trials of a batch, all with the same dice.  A **crew** plays them and
may hand the outcomes back in any order.  Once a batch is complete its results are taken in trial by
trial, the stopping rule is consulted, and a snapshot may be reported.  One failing trial fails the
whole run; an interrupted one ends it after the finished results of its batch have been counted.

* `Crew` — whoever plays the tasks of a batch, and the caller's side of a run.
* `Contender.absorb` — what a result does to the contender it belongs to.
* `run` — the run itself, with all snapshots that it reported.
-/

namespace Backgammon.Rollout

/-- One trial of one candidate. -/
structure Task where
  candidate : Nat
  trial : Nat
deriving DecidableEq, Repr

/-- **What a worker hands back**: the task, and its result unless it was interrupted or failed. -/
structure Report (α : Type) where
  task : Task
  worker : Nat
  outcome : Except TrialError (Option (Equities α))

/-- **How a run ended.** -/
inductive Status where
  | completed
  | stoppedEarly (reason : StopReason)
  | interrupted
deriving DecidableEq, Repr

/-- A candidate as a snapshot shows it. -/
structure CandidateProgress (α : Type) where
  trials : Nat
  live : Bool
  mean : Equities α
  stdError : Equities α
deriving DecidableEq, Repr

/-- **The state of a run** as it is reported.  The time since its start, which comes with a report, is left
out: no rule reads it. -/
structure Snapshot (α : Type) where
  finished : Bool
  candidates : List (CandidateProgress α)
deriving DecidableEq, Repr

/-- What a run has found out about a candidate. -/
structure CandidateResult (α : Type) where
  mean : Equities α
  stdError : Equities α
  trials : Nat
  eliminated : Bool
deriving DecidableEq, Repr

/-- **The result of a run.** -/
structure Result (α : Type) where
  candidates : List (CandidateResult α)
  status : Status
deriving DecidableEq, Repr

namespace Result

variable {α : Type}

/-- A rule stopped the run before the trials ran out. -/
def stoppedEarly (r : Result α) : Bool :=
  match r.status with
  | .stoppedEarly _ => true
  | _ => false

/-- The run was not interrupted. -/
def isComplete (r : Result α) : Bool := r.status != .interrupted

end Result

/-- **A run that is over**: what it reported, and its result unless a trial failed. -/
structure Run (α : Type) where
  snapshots : List (Snapshot α)
  ending : Except (RolloutError α) (Result α)

/-- **The other side of a run**: everything it asks for while it goes on, batch by batch. -/
structure Crew (m : Type → Type) (α : Type) where
  /-- The caller wants the run to end; asked before every batch. -/
  cancelled : (batch : Nat) → m Bool
  /-- Plays the tasks of a batch and hands back a report for each, in any order. -/
  perform : (batch : Nat) → List Task → m (List (Report α))
  /-- The time after a batch, in milliseconds. -/
  clock : (batch : Nat) → m Nat
  /-- Shows a snapshot to the caller. -/
  report : Snapshot α → m Unit

variable {α : Type} [Scalar α]

/-! ## Taking results in -/

namespace Contender

/-- **Takes one result in.**  In an antithetic pair the even trial waits for the odd one, and their
average counts as one observation; an odd trial without its partner counts for nothing. -/
def absorb (antithetic : Bool) (c : Contender α) (trial : Nat) (v : Equities α) : Contender α :=
  if !antithetic then { c with moments := c.moments.push v }
  else if trial % 2 = 0 then { c with unpaired := some (trial, v) }
  else
    match c.unpaired with
    | none => c
    | some (first, w) =>
      { c with
        moments :=
          if first + 1 = trial then c.moments.push (Equities.zipWith (fun a b => (a + b) / 2) w v)
          else c.moments
        unpaired := none }

/-- The trials behind the results of a contender. -/
def trials (antithetic : Bool) (c : Contender α) : Nat :=
  if antithetic then c.moments.count * 2 else c.moments.count

variable [RealFunctions α]

def progress (antithetic : Bool) (c : Contender α) : CandidateProgress α :=
  ⟨c.trials antithetic, c.live, c.moments.mean, c.moments.stdError⟩

def result (antithetic : Bool) (c : Contender α) : CandidateResult α :=
  ⟨c.moments.mean, c.moments.stdError, c.trials antithetic, !c.live⟩

end Contender

/-- The finished results of one candidate among the reports, in the order of their trials. -/
def resultsOf (candidate : Nat) (reports : List (Report α)) : List (Nat × Equities α) :=
  let own := reports.filterMap fun r =>
    match r.outcome with
    | .ok (some v) => if r.task.candidate = candidate then some (r.task.trial, v) else none
    | _ => none
  own.mergeSort fun x y => decide (x.1 ≤ y.1)

/-- **Takes the reports of a batch in**: every contender its own results, trial by trial. -/
def absorbAll (antithetic : Bool) (field : List (Contender α)) (reports : List (Report α)) :
    List (Contender α) :=
  field.zipIdx.map fun (c, i) =>
    (resultsOf i reports).foldl (fun c (trial, v) => c.absorb antithetic trial v) c

/-- The failure of the first report that is one. -/
def failure? (reports : List (Report α)) : Option (RolloutError α) :=
  reports.findSome? fun r =>
    match r.outcome with
    | .error e => some (.ofTrial r.worker e)
    | .ok _ => none

/-- Some trial was interrupted. -/
def anyInterrupted (reports : List (Report α)) : Bool :=
  reports.any fun r =>
    match r.outcome with
    | .ok none => true
    | _ => false

/-! ## Batches -/

/-- The number of batches into which the trials are dealt. -/
def Settings.batches (c : Settings α) : Nat := (c.trials + c.batchSize - 1) / c.batchSize

/-- The trials of a batch; the last batch may be short. -/
def Settings.batchTrials (c : Settings α) (batch : Nat) : List Nat :=
  let first := batch * c.batchSize
  List.range' first (min (first + c.batchSize) c.trials - first)

/-- **The tasks of a batch**: its trials in order, each for every live contender. -/
def tasks (trials : List Nat) (field : List (Contender α)) : List Task :=
  trials.flatMap fun trial =>
    field.zipIdx.filterMap fun (c, i) => if c.live then some ⟨i, trial⟩ else none

/-- **The state of a run** between two batches: the contenders, the time of the last report, and all
reports, the latest first. -/
structure RunState (α : Type) where
  field : List (Contender α)
  lastReport : Option Nat
  reported : List (Snapshot α)

/-- At least the interval has passed since the last report, if there was one. -/
def reportDue (interval : Nat) (last : Option Nat) (now : Nat) : Bool :=
  last.all fun t => decide (interval ≤ now - t)

variable [RealFunctions α] {m : Type → Type} [Monad m]

/-- The contenders as a snapshot. -/
def snapshot (antithetic finished : Bool) (field : List (Contender α)) : Snapshot α :=
  ⟨finished, field.map (·.progress antithetic)⟩

/-- **The end of a run**: a last snapshot, and the results. -/
def finish (c : Settings α) (crew : Crew m α) (state : RunState α) (status : Status) :
    m (Run α) := do
  let last := snapshot c.antithetic true state.field
  crew.report last
  return {
    snapshots := (last :: state.reported).reverse
    ending := .ok ⟨state.field.map (·.result c.antithetic), status⟩ }

/-- Reports a snapshot if one is due. -/
def reportIfDue (c : Settings α) (crew : Crew m α) (batch : Nat) (state : RunState α) :
    m (RunState α) := do
  let now ← crew.clock batch
  if reportDue c.progressInterval state.lastReport now then
    let shot := snapshot c.antithetic false state.field
    crew.report shot
    return { state with lastReport := some now, reported := shot :: state.reported }
  else return state

/-- **Batches until the run is over**, the given number of them still to come. -/
def runFrom (c : Settings α) (crew : Crew m α) : (left : Nat) → RunState α → m (Run α)
  | left, state => do
    if ← crew.cancelled (c.batches - left) then finish c crew state .interrupted
    else
      match left with
      | 0 => finish c crew state .completed
      | left + 1 => do
        let batch := c.batches - (left + 1)
        let reports ← crew.perform batch (tasks (c.batchTrials batch) state.field)
        match failure? reports with
        | some e => return { snapshots := state.reported.reverse, ending := .error e }
        | none =>
          let field := absorbAll c.antithetic state.field reports
          if anyInterrupted reports then finish c crew { state with field } .interrupted
          else
            let (field, stop) := c.stopping.check c.key field
            let state ← reportIfDue c crew batch { state with field }
            match stop with
            | some reason => finish c crew state (.stoppedEarly reason)
            | none => runFrom c crew left state

/-- **A run over so many candidates.**  Settings that are not allowed fail it at once. -/
def run (c : Settings α) (crew : Crew m α) (candidates : Nat) : m (Run α) :=
  match c.validate with
  | .error e => return { snapshots := [], ending := .error (.setting e) }
  | .ok () =>
    runFrom c crew c.batches ⟨List.replicate candidates .fresh, none, []⟩

/-! ## A crew of one -/

/-- A position to roll out, seen by the player on roll. -/
structure Candidate (Board : Type) where
  board : Board
  stakes : Stakes

/-- **Plays one task** in an arena, with the dice of its trial. -/
def Arena.perform {δ Board Move : Type} (a : Arena m δ α Board Move) (start : Nat → δ)
    (horizon : Nat) (candidates : Array (Candidate Board)) (t : Task) : m (Report α) := do
  let outcome ← match candidates[t.candidate]? with
    | some c => (a.play horizon c.board c.stakes (start t.trial)).run
    | none => pure (.ok none)
  return { task := t, worker := 0, outcome }

/-- **A single worker** who plays the tasks in the order in which they come. -/
def Arena.soleWorker {δ Board Move : Type} (a : Arena m δ α Board Move) (start : Nat → δ)
    (horizon : Nat) (candidates : Array (Candidate Board)) (cancelled : m Bool) (clock : m Nat)
    (report : Snapshot α → m Unit) : Crew m α where
  cancelled _ := cancelled
  perform _ tasks := tasks.mapM (a.perform start horizon candidates)
  clock _ := clock
  report := report

end Backgammon.Rollout
