import Backgammon.Rollout.Pool
import Mathlib.Data.List.Nodup
import Mathlib.Data.List.Sort

/-!
# Proofs/Rollout/Batch — a batch, whatever the order of its reports

A batch hands every live contender each of its trials, and the workers report them in some order.
What is taken in afterwards does not show that order.

* `Settings.batchTrials_eq` — the trials of a batch start where those before it end.
* `credited` — the vector that a candidate is credited with for a trial: the trial was handed to it
  and was played to its end.
* `resultsOf_eq` — the results of a candidate in a batch are those that it is credited with, trial
  after trial.
* `failure?_eq_none_iff`, `failsWith_of_failure?`, `anyInterrupted_eq_true_iff` — failures and
  interruptions, read off the tasks.
-/

namespace Backgammon.Rollout

variable {α : Type} {play : Outcomes α} {field : List (Contender α)} {trials : List Nat}

/-! ## The trials of a batch -/

namespace Settings

variable {c : Settings α}

/-- The trials dealt out in the first batches. -/
def dealt (c : Settings α) (batches : Nat) : Nat := min (batches * c.batchSize) c.trials

@[simp] theorem dealt_zero (c : Settings α) : c.dealt 0 = 0 := by simp [dealt]

theorem mul_batchSize_lt (h : 0 < c.batchSize) {batch : Nat} (hb : batch < c.batches) :
    batch * c.batchSize < c.trials := by
  have := (Nat.le_div_iff_mul_le h).1 (Nat.succ_le_of_lt hb)
  rw [Nat.succ_mul] at this
  omega

/-- **The trials of a batch start where those before it end.** -/
theorem batchTrials_eq (h : 0 < c.batchSize) {batch : Nat} (hb : batch < c.batches) :
    ∃ n, c.batchTrials batch = List.range' (c.dealt batch) n ∧
      c.dealt (batch + 1) = c.dealt batch + n := by
  have first : c.dealt batch = batch * c.batchSize :=
    Nat.min_eq_left (Nat.le_of_lt (mul_batchSize_lt h hb))
  refine ⟨_, by rw [first]; rfl, ?_⟩
  rw [first, dealt, Nat.succ_mul]
  have := mul_batchSize_lt h hb
  omega

/-- All batches together deal out all trials. -/
theorem dealt_batches (h : 0 < c.batchSize) : c.dealt c.batches = c.trials := by
  refine Nat.min_eq_right ?_
  have := Nat.div_add_mod (c.trials + c.batchSize - 1) c.batchSize
  have := Nat.mod_lt (c.trials + c.batchSize - 1) h
  rw [batches, Nat.mul_comm]
  omega

/-- Allowed settings ask for trials, in batches, and for someone to play them. -/
theorem pos_of_validate [Scalar α] (h : c.validate = .ok ()) :
    0 < c.trials ∧ 0 < c.batchSize ∧ 0 < c.parallelism := by
  have count {name : String} {n : Nat} {rest : Unit → Except (SettingError α) Unit}
      (h : (checkCount name n >>= rest) = .ok ()) : 0 < n ∧ rest () = .ok () := by
    rw [checkCount] at h
    split at h
    · exact absurd h (by simp [bind, Except.bind])
    · exact ⟨Nat.pos_of_ne_zero ‹_›, h⟩
  obtain ⟨trials, h⟩ := count h
  obtain ⟨batchSize, h⟩ := count h
  exact ⟨trials, batchSize, (count h).1⟩

/-- **The settings at another pace**: other batches, more or fewer workers, reports more or less
often. -/
def paced (c : Settings α) (batchSize parallelism progressInterval : Nat) : Settings α :=
  { c with batchSize, parallelism, progressInterval }

/-- Any pace is allowed at which something is done. -/
theorem validate_paced [Scalar α] (h : c.validate = .ok ()) {batchSize parallelism : Nat}
    (hb : 0 < batchSize) (hp : 0 < parallelism) (progressInterval : Nat) :
    (c.paced batchSize parallelism progressInterval).validate = .ok () := by
  have count {name : String} {n : Nat} (hn : 0 < n) : checkCount (α := α) name n = .ok () :=
    if_neg (Nat.ne_of_gt hn)
  obtain ⟨-, old_batchSize, old_parallelism⟩ := pos_of_validate h
  rw [← h, validate, validate]
  simp only [paced, count hb, count hp, count old_batchSize, count old_parallelism]
  rfl

end Settings

/-! ## The tasks of a batch -/

/-- The places of the live contenders. -/
def seats (field : List (Contender α)) : List Nat :=
  (field.zipIdx.filter fun x => x.1.live).map Prod.snd

theorem mem_seats {i : Nat} : i ∈ seats field ↔ ∃ c, field[i]? = some c ∧ c.live = true := by
  simp [seats, List.mem_zipIdx_iff_getElem?]

theorem nodup_seats (field : List (Contender α)) : (seats field).Nodup := by
  have places : (field.zipIdx.map Prod.snd).Nodup := by
    rw [List.zipIdx_map_snd]
    exact List.nodup_range'
  exact places.sublist (List.filter_sublist.map _)

theorem tasks_eq (trials : List Nat) (field : List (Contender α)) :
    tasks trials field = trials.flatMap fun t => (seats field).map (Task.mk · t) := by
  refine List.flatMap_congr ?_
  intro t _
  rw [seats, List.map_map, ← List.filterMap_eq_map, List.filterMap_filter]
  rfl

theorem mem_tasks {t : Task} :
    t ∈ tasks trials field ↔ t.trial ∈ trials ∧ t.candidate ∈ seats field := by
  obtain ⟨i, n⟩ := t
  simp only [tasks_eq, List.mem_flatMap, List.mem_map, Task.mk.injEq]
  constructor
  · rintro ⟨m, hm, j, hj, rfl, rfl⟩
    exact ⟨hm, hj⟩
  · rintro ⟨hn, hi⟩
    exact ⟨n, hn, i, hi, rfl, rfl⟩

/-- **No task is handed out twice.** -/
theorem nodup_tasks (h : trials.Nodup) (field : List (Contender α)) :
    (tasks trials field).Nodup := by
  rw [tasks_eq, List.nodup_flatMap]
  refine ⟨fun t _ => (nodup_seats field).map fun i j hij => (Task.mk.inj hij).1, ?_⟩
  refine h.imp ?_
  intro m n hmn
  simp only [Function.onFun, List.disjoint_left, List.mem_map]
  rintro _ ⟨i, -, rfl⟩ ⟨j, -, hj⟩
  exact hmn (Task.mk.inj hj).2.symm

/-! ## What a candidate is credited with -/

/-- The vector of a trial that was played to its end. -/
def finished? : Except TrialError (Option (Equities α)) → Option (Equities α)
  | .ok v => v
  | .error _ => none

/-- The vector of a task whose trial was played to its end. -/
def Outcomes.value? (play : Outcomes α) (t : Task) : Option (Equities α) := finished? (play t)

/-- **What a candidate is credited with for a trial**, given the tasks that were handed out. -/
def credited (play : Outcomes α) (handed : List Task) (candidate trial : Nat) :
    Option (Equities α) :=
  if ⟨candidate, trial⟩ ∈ handed then play.value? ⟨candidate, trial⟩ else none

/-- The credited vectors of some trials, each with its trial. -/
def credits (credit : Nat → Option (Equities α)) (trials : List Nat) : List (Nat × Equities α) :=
  trials.filterMap fun t => (credit t).map (t, ·)

theorem mem_credits {credit : Nat → Option (Equities α)} {x : Nat × Equities α} :
    x ∈ credits credit trials ↔ x.1 ∈ trials ∧ credit x.1 = some x.2 := by
  obtain ⟨t, v⟩ := x
  simp only [credits, List.mem_filterMap, Option.map_eq_some_iff, Prod.mk.injEq]
  constructor
  · rintro ⟨_, ht, _, hv, rfl, rfl⟩
    exact ⟨ht, hv⟩
  · rintro ⟨ht, hv⟩
    exact ⟨t, ht, v, hv, rfl, rfl⟩

/-- The trials of the credits are in order. -/
theorem pairwise_credits (h : trials.Pairwise (· < ·)) (credit : Nat → Option (Equities α)) :
    (credits credit trials).Pairwise fun x y => x.1 < y.1 := by
  refine List.Pairwise.filterMap _ ?_ h
  intro s t hst x hx y hy
  obtain ⟨v, -, rfl⟩ := Option.map_eq_some_iff.1 hx
  obtain ⟨w, -, rfl⟩ := Option.map_eq_some_iff.1 hy
  exact hst

/-! ## Reports in any order -/

/-- What a task says about a candidate. -/
def resultFor (play : Outcomes α) (candidate : Nat) (t : Task) : Option (Nat × Equities α) :=
  if t.candidate = candidate then (play.value? t).map (t.trial, ·) else none

/-- Of distinct seats one at most is a given one. -/
theorem filterMap_eq_of_nodup {β : Type} {l : List Nat} (h : l.Nodup) (i : Nat)
    (f : Nat → Option β) :
    (l.filterMap fun j => if j = i then f j else none) = if i ∈ l then (f i).toList else [] := by
  induction l with
  | nil => rfl
  | cons j l ih =>
    obtain ⟨hj, hl⟩ := List.nodup_cons.1 h
    by_cases hji : j = i
    · subst hji
      rw [List.filterMap_cons, ih hl]
      cases f j <;> simp [hj]
    · rw [List.filterMap_cons, ih hl]
      simp [hji, Ne.symm hji]

/-- In the order of the tasks, a candidate's results are its credits. -/
theorem filterMap_tasks (play : Outcomes α) (trials : List Nat) (field : List (Contender α))
    (i : Nat) :
    (tasks trials field).filterMap (resultFor play i) =
      credits (credited play (tasks trials field) i) trials := by
  conv_lhs => rw [tasks_eq, List.filterMap_flatMap]
  rw [credits, List.filterMap_eq_flatMap_toList (fun t => Option.map _ _) trials]
  refine List.flatMap_congr ?_
  intro t ht
  rw [List.filterMap_map]
  have one := filterMap_eq_of_nodup (nodup_seats field) i
    fun j => (play.value? ⟨j, t⟩).map (t, ·)
  refine Eq.trans one ?_
  by_cases hi : i ∈ seats field <;> simp [credited, mem_tasks, ht, hi]

variable {workers : Nat} {reports : List (Report α)}

/-- **The results of a candidate in a batch** are its credits, trial after trial, in whatever order
the reports have come in. -/
theorem resultsOf_eq (h : Delivers workers play (tasks trials field) reports)
    (ht : trials.Pairwise (· < ·)) (i : Nat) :
    resultsOf i reports = credits (credited play (tasks trials field) i) trials := by
  have own : resultsOf i reports = ((reports.map Report.task).filterMap
      (resultFor play i)).mergeSort fun x y => decide (x.1 ≤ y.1) := by
    rw [List.filterMap_map]
    refine congrArg (List.mergeSort · _) (List.filterMap_congr ?_)
    intro r hr
    rw [h.outcome_eq hr, Function.comp, resultFor, Outcomes.value?]
    rcases play r.task with e | _ | v <;> simp [finished?]
  rw [own]
  -- both sides are in the order of the trials, and no trial occurs twice
  have sorted : (List.mergeSort ((reports.map Report.task).filterMap (resultFor play i))
      fun x y => decide (x.1 ≤ y.1)).Pairwise fun x y => decide (x.1 ≤ y.1) = true :=
    List.pairwise_mergeSort (fun a b c => by simpa using Nat.le_trans)
      (fun a b => by simpa using Nat.le_total a.1 b.1) _
  refine List.Perm.eq_of_pairwise ?_ (sorted.imp of_decide_eq_true)
    ((pairwise_credits ht _).imp Nat.le_of_lt) ?_
  · intro x y hx hy hxy hyx
    rw [List.mem_mergeSort, (h.perm_tasks.filterMap _).mem_iff, filterMap_tasks] at hx
    have same : x.1 = y.1 := Nat.le_antisymm hxy hyx
    have hx := (mem_credits.1 hx).2
    rw [same, (mem_credits.1 hy).2] at hx
    exact Prod.ext same (Option.some.inj hx).symm
  · rw [← filterMap_tasks]
    exact (List.mergeSort_perm _ _).trans (h.perm_tasks.filterMap _)

/-- **Some trial of a batch fails.** -/
def Fails (play : Outcomes α) (batch : List Task) : Prop := ∃ t ∈ batch, ∃ e, play t = .error e

/-- **A failure of a batch**: that of one of its trials, as one of the workers tells it. -/
def FailsWith (workers : Nat) (play : Outcomes α) (batch : List Task) (e : RolloutError α) : Prop :=
  ∃ t ∈ batch, ∃ w < workers, ∃ e', play t = .error e' ∧ e = .ofTrial w e'

theorem FailsWith.fails {batch : List Task} {e : RolloutError α}
    (h : FailsWith workers play batch e) : Fails play batch := by
  obtain ⟨t, ht, _, -, e', he', -⟩ := h
  exact ⟨t, ht, e', he'⟩

/-- A batch is sound when no trial of it fails. -/
theorem failure?_eq_none_iff {batch : List Task} (h : Delivers workers play batch reports) :
    failure? reports = none ↔ ¬ Fails play batch := by
  rw [failure?, List.findSome?_eq_none_iff]
  constructor
  · rintro hr ⟨t, ht, e, he⟩
    obtain ⟨r, hmem, rfl⟩ := List.mem_map.1 (h.perm_tasks.mem_iff.2 ht)
    have := hr r hmem
    rw [h.outcome_eq hmem, he] at this
    exact absurd this (by simp)
  · intro sound r hmem
    have task := h.perm_tasks.mem_iff.1 (List.mem_map_of_mem hmem)
    rw [h.outcome_eq hmem]
    rcases he : play r.task with e | v
    · exact absurd ⟨_, task, e, he⟩ sound
    · rfl

/-- The failure of a batch is that of one of its trials. -/
theorem failsWith_of_failure? {batch : List Task} {e : RolloutError α}
    (h : Delivers workers play batch reports) (he : failure? reports = some e) :
    FailsWith workers play batch e := by
  obtain ⟨r, hmem, hr⟩ := List.exists_of_findSome?_eq_some he
  have task := h.perm_tasks.mem_iff.1 (List.mem_map_of_mem hmem)
  rw [h.outcome_eq hmem] at hr
  rcases hp : play r.task with e' | v
  · rw [hp] at hr
    exact ⟨r.task, task, r.worker, h.worker_lt hmem, e', hp, (Option.some.inj hr).symm⟩
  · rw [hp] at hr
    exact absurd hr (by simp)

theorem anyInterrupted_eq_true_iff {batch : List Task} (h : Delivers workers play batch reports) :
    anyInterrupted reports = true ↔ ∃ t ∈ batch, play t = .ok none := by
  rw [anyInterrupted, List.any_eq_true]
  constructor
  · rintro ⟨r, hmem, hr⟩
    refine ⟨r.task, h.perm_tasks.mem_iff.1 (List.mem_map_of_mem hmem), ?_⟩
    rw [h.outcome_eq hmem] at hr
    rcases hp : play r.task with e | _ | v <;> simp [hp] at hr ⊢
  · rintro ⟨t, ht, hp⟩
    obtain ⟨r, hmem, rfl⟩ := List.mem_map.1 (h.perm_tasks.mem_iff.2 ht)
    exact ⟨r, hmem, by rw [h.outcome_eq hmem, hp]⟩

end Backgammon.Rollout
