import Backgammon.Rollout.Run
import Mathlib.Logic.Relation

/-!
# Rollout/Pool — workers who share the tasks of a batch

    queue ──take──▸ workers ──hand in──▸ reports

The tasks of a batch stand in a queue.  A worker with nothing to do takes the first of them, and hands
a report in when its trial is over; nothing orders the workers among themselves.

* `Pool.Step` — a worker takes a task, or hands a report in.
* `Delivers` — the reports that so many workers may hand in for the tasks of a batch, in the order in
  which they come in.
* `Delivers.perm_tasks`, `Delivers.outcome_eq` — every task is reported exactly once, with the outcome
  of its trial.
* `Pool.finishes` — a pool with a worker is never stuck.
* `Crew.PlayedBy`, `Crew.PlayedAmong` — a crew whose batches are played by a pool, its trials always
  ending in the same way or now and then in another.
* `Arena.outcomes` — the trials of an arena; `Arena.outcomesIn` — those of one whose evaluator and dice
  share a world.
-/

namespace Backgammon.Rollout

open Relation

variable {α : Type}

/-- **How the trials end**, task by task. -/
abbrev Outcomes (α : Type) : Type := Task → Except TrialError (Option (Equities α))

/-- **A pool in the middle of a batch.** -/
structure Pool (α : Type) where
  /-- Tasks that nobody has taken. -/
  waiting : List Task
  /-- Tasks under way, each with the worker who plays it. -/
  playing : List (Nat × Task)
  /-- Reports in the order in which they have come in. -/
  arrived : List (Report α)

namespace Pool

/-- **What can happen next** in a pool of so many workers. -/
inductive Step (workers : Nat) (play : Outcomes α) : Pool α → Pool α → Prop
  /-- An idle worker takes the first task in the queue. -/
  | take {w t waiting playing arrived} (known : w < workers) (idle : ∀ x ∈ playing, x.1 ≠ w) :
      Step workers play ⟨t :: waiting, playing, arrived⟩ ⟨waiting, (w, t) :: playing, arrived⟩
  /-- A worker whose trial is over hands the report in. -/
  | handIn {w t waiting arrived} (before after : List (Nat × Task)) :
      Step workers play ⟨waiting, before ++ (w, t) :: after, arrived⟩
        ⟨waiting, before ++ after, arrived ++ [⟨t, w, play t⟩]⟩

/-- A pool to which a batch has just been given. -/
def start (tasks : List Task) : Pool α := ⟨tasks, [], []⟩

/-- Steps until the batch is over: two for a task that waits, one for a task under way. -/
def stepsLeft (p : Pool α) : Nat := 2 * p.waiting.length + p.playing.length

/-- **The books of a pool balance**: every task of the batch waits, is under way or is reported, and
the reports tell how the trials ended. -/
structure Balanced (workers : Nat) (play : Outcomes α) (tasks : List Task) (p : Pool α) : Prop where
  perm : (p.arrived.map Report.task ++ (p.playing.map Prod.snd ++ p.waiting)).Perm tasks
  worker_lt : ∀ x ∈ p.playing, x.1 < workers
  arrived_eq : ∀ r ∈ p.arrived, r.worker < workers ∧ r.outcome = play r.task

variable {workers : Nat} {play : Outcomes α} {tasks : List Task} {p q : Pool α}

theorem balanced_start : Balanced workers play tasks (start tasks) where
  perm := .refl _
  worker_lt := by simp [start]
  arrived_eq := by simp [start]

/-- A step moves one task on. -/
theorem Step.balanced (h : Step workers play p q) (hp : Balanced workers play tasks p) :
    Balanced workers play tasks q := by
  cases h with
  | @take w t waiting playing arrived known idle =>
    refine ⟨?_, ?_, hp.arrived_eq⟩
    · have taken : (playing.map Prod.snd ++ t :: waiting).Perm
          (t :: (playing.map Prod.snd ++ waiting)) := List.perm_middle
      exact (taken.symm.append_left _).trans hp.perm
    · intro x hx
      rcases List.mem_cons.1 hx with rfl | hx
      · exact known
      · exact hp.worker_lt x hx
  | @handIn w t waiting arrived before after =>
    refine ⟨?_, ?_, ?_⟩
    · refine List.Perm.trans ?_ hp.perm
      simp only [List.map_append, List.map_cons, List.map_nil, List.append_assoc]
      have handed : (before.map Prod.snd ++ t :: (after.map Prod.snd ++ waiting)).Perm
          (t :: (before.map Prod.snd ++ (after.map Prod.snd ++ waiting))) := List.perm_middle
      exact handed.symm.append_left _
    · intro x hx
      refine hp.worker_lt x ?_
      rw [List.mem_append] at hx ⊢
      exact hx.imp_right (List.mem_cons_of_mem _)
    · intro r hr
      rcases List.mem_append.1 hr with hr | hr
      · exact hp.arrived_eq r hr
      · obtain rfl := List.mem_singleton.1 hr
        exact ⟨hp.worker_lt (w, t) (by simp), rfl⟩

theorem balanced_of_reach (h : ReflTransGen (Step workers play) (start tasks) p) :
    Balanced workers play tasks p := by
  induction h with
  | refl => exact balanced_start
  | tail _ step ih => exact step.balanced ih

/-- **Every step brings the batch nearer to its end.** -/
theorem Step.stepsLeft_eq (h : Step workers play p q) : p.stepsLeft = q.stepsLeft + 1 := by
  cases h with
  | take => simp only [stepsLeft, List.length_cons]; omega
  | handIn => simp only [stepsLeft, List.length_append, List.length_cons]; omega

/-- **A pool with a worker is never stuck**: as long as a task waits or is under way, something can
happen. -/
theorem exists_step (h : 0 < workers) (play : Outcomes α) (hp : p.stepsLeft ≠ 0) :
    ∃ q, Step workers play p q := by
  obtain ⟨waiting, playing, arrived⟩ := p
  cases playing with
  | cons x playing => exact ⟨_, Step.handIn [] playing⟩
  | nil =>
    cases waiting with
    | cons t waiting => exact ⟨_, Step.take h (by simp)⟩
    | nil => exact absurd rfl hp

/-- **Every batch comes to its end**, whatever has happened so far. -/
theorem finishes (h : 0 < workers) (play : Outcomes α) (p : Pool α) :
    ∃ reports, ReflTransGen (Step workers play) p ⟨[], [], reports⟩ := by
  induction hn : p.stepsLeft generalizing p with
  | zero =>
    obtain ⟨waiting, playing, arrived⟩ := p
    simp only [stepsLeft, Nat.add_eq_zero_iff, Nat.mul_eq_zero, List.length_eq_zero_iff] at hn
    obtain ⟨hw, rfl⟩ := hn
    obtain rfl := hw.resolve_left (by decide)
    exact ⟨arrived, .refl⟩
  | succ n ih =>
    obtain ⟨q, hq⟩ := exists_step h play (p := p) (by omega)
    obtain ⟨reports, hr⟩ := ih q (by have := hq.stepsLeft_eq; omega)
    exact ⟨reports, .head hq hr⟩

end Pool

/-- **The reports of a batch** as a pool of so many workers may hand them in: some way of working
through the queue ends with them. -/
def Delivers (workers : Nat) (play : Outcomes α) (tasks : List Task) (reports : List (Report α)) :
    Prop :=
  ReflTransGen (Pool.Step workers play) (Pool.start tasks) ⟨[], [], reports⟩

namespace Delivers

variable {workers : Nat} {play : Outcomes α} {tasks : List Task} {reports : List (Report α)}

/-- **Every task is reported exactly once.** -/
theorem perm_tasks (h : Delivers workers play tasks reports) :
    (reports.map Report.task).Perm tasks := by
  simpa using (Pool.balanced_of_reach h).perm

/-- **A report tells how the trial of its task ended.** -/
theorem outcome_eq (h : Delivers workers play tasks reports) {r : Report α} (hr : r ∈ reports) :
    r.outcome = play r.task :=
  ((Pool.balanced_of_reach h).arrived_eq r hr).2

theorem worker_lt (h : Delivers workers play tasks reports) {r : Report α} (hr : r ∈ reports) :
    r.worker < workers :=
  ((Pool.balanced_of_reach h).arrived_eq r hr).1

/-- **The tasks of the batch decide**: how other trials would end does not matter. -/
theorem congr {play' : Outcomes α} (h : Delivers workers play tasks reports)
    (same : ∀ t ∈ tasks, play t = play' t) : Delivers workers play' tasks reports := by
  have reach (p : Pool α) (hp : ReflTransGen (Pool.Step workers play) (Pool.start tasks) p) :
      ReflTransGen (Pool.Step workers play') (Pool.start tasks) p := by
    induction hp with
    | refl => exact .refl
    | tail before step ih =>
      cases step with
      | take known idle => exact ih.tail (.take known idle)
      | @handIn w t waiting arrived before' after' =>
        have mem : t ∈ tasks := (Pool.balanced_of_reach before).perm.mem_iff.1 (by simp)
        rw [same t mem]
        exact ih.tail (.handIn before' after')
  exact reach _ h

/-- One worker who never rests plays the rest of the queue in order. -/
theorem of_reach (h : 0 < workers) {rest : List Task}
    (so_far : ReflTransGen (Pool.Step workers play) (Pool.start tasks) ⟨rest, [], reports⟩) :
    Delivers workers play tasks (reports ++ rest.map fun t => ⟨t, 0, play t⟩) := by
  induction rest generalizing reports with
  | nil => rwa [List.map_nil, List.append_nil]
  | cons t rest ih =>
    have hand : Pool.Step workers play ⟨rest, [(0, t)], reports⟩
        ⟨rest, [], reports ++ [⟨t, 0, play t⟩]⟩ := .handIn [] []
    have played := ih ((so_far.tail (.take h (by simp))).tail hand)
    rwa [List.append_assoc] at played

theorem inOrder (h : 0 < workers) (play : Outcomes α) (tasks : List Task) :
    Delivers workers play tasks (tasks.map fun t => ⟨t, 0, play t⟩) := of_reach h .refl

end Delivers

/-- **A crew whose batches are played by a pool** of so many workers: whatever the world, the reports of
a batch are such as the pool may hand in. -/
def Crew.PlayedBy {σ : Type} (crew : Crew (StateM σ) α) (workers : Nat) (play : Outcomes α) : Prop :=
  ∀ batch tasks s, Delivers workers play tasks ((crew.perform batch tasks).run s).1

/-- A crew whose batches are played in order, for a caller who lets the run go its way. -/
def Crew.inOrder (play : Outcomes α) : Crew (StateM Unit) α where
  cancelled _ := pure false
  perform _ tasks := pure (tasks.map fun t => ⟨t, 0, play t⟩)
  clock batch := pure batch
  report _ := pure ()

theorem Crew.playedBy_inOrder {workers : Nat} (h : 0 < workers) (play : Outcomes α) :
    (Crew.inOrder play).PlayedBy workers play := fun _ tasks _ => .inOrder h play tasks

/-- **A crew whose batches are played by a pool**, and whose trials may end in other ways from batch to
batch: each time in one of the possible ways. -/
def Crew.PlayedAmong {σ : Type} (crew : Crew (StateM σ) α) (workers : Nat)
    (possible : Outcomes α → Prop) : Prop :=
  ∀ batch tasks s, ∃ play, possible play ∧
    Delivers workers play tasks ((crew.perform batch tasks).run s).1

theorem Crew.PlayedBy.among {σ : Type} {crew : Crew (StateM σ) α} {workers : Nat} {play : Outcomes α}
    (h : crew.PlayedBy workers play) {possible : Outcomes α → Prop} (hp : possible play) :
    crew.PlayedAmong workers possible := fun batch tasks s => ⟨play, hp, h batch tasks s⟩

/-! ## Trials in an arena -/

/-- **How the trials over some candidates end** in an arena with a world, each begun in a world of its
own. -/
def Arena.outcomesIn [Scalar α] {τ δ Board Move : Type} (a : Arena (StateM τ) δ α Board Move)
    (start : Nat → δ) (horizon : Nat) (candidates : Array (Candidate Board)) (world : Task → τ) :
    Outcomes α := fun t => ((a.perform start horizon candidates t).run (world t)).1.outcome

section

variable [Scalar α] {δ Board Move : Type} (a : Arena Id δ α Board Move) (start : Nat → δ)
  (horizon : Nat) (candidates : Array (Candidate Board))

/-- **How the trials over some candidates end** in an arena. -/
def Arena.outcomes : Outcomes α := fun t =>
  (a.perform start horizon candidates t).run.outcome

end

end Backgammon.Rollout
