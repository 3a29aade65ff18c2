import Backgammon.Proofs.Exact
import Backgammon.Proofs.Rollout.Elimination
import Backgammon.Proofs.Rollout.Interruption
import Backgammon.Proofs.Rollout.Schedules
import Backgammon.Proofs.Rollout.Trace

/-!
# Proofs/Rollout/Cancellation — a run that may be cancelled at any moment

    uncancelled   ▪▪▪▪ │ ▪▪▪▪ │ ▪▪▪▪ │ ▪▪▪▪ │ …
    cancelled     ▪▪▪▪ │ ▪▪▪▪ │ ▪  ▪

A caller may cancel a run between two batches or in the middle of one, where every trial sees it at a
moment of its own.  What has been played by then is what would have been played anyway.

* `told` — how the trials ended, as the reports of a run tell it.
* `InTurn.accounts`, `Closed.counts_told` — contenders and results hold exactly what the reports tell.
* `exists_alike` — the batches before the cancellation are those of the run that nobody cancels.
* `cancellation_corrupts_nothing` — trials and runs that are cancelled at any moment.
-/

namespace Backgammon.Rollout

open Relation

variable {σ σ' τ κ α : Type}

/-! ## What the reports tell -/

/-- **How the trials ended**, as reports tell it: nothing is known of a trial that is not reported. -/
def told (batches : List (List (Report α))) : Outcomes α := fun t =>
  (batches.flatten.find? fun p => decide (p.task = t)).elim (.ok none) Report.outcome

/-- The tasks that are reported. -/
def reported (batches : List (List (Report α))) : List Task := batches.flatten.map Report.task

section

variable {batches : List (List (Report α))} {reports : List (Report α)} {t : Task}

theorem find?_eq_none_of_not_mem (h : t ∉ reported batches) :
    batches.flatten.find? (fun p => decide (p.task = t)) = none :=
  List.find?_eq_none.2 fun p hp eq => h (List.mem_map.2 ⟨p, hp, of_decide_eq_true eq⟩)

theorem exists_find?_of_mem (h : t ∈ reports.map Report.task) :
    ∃ p ∈ reports, p.task = t ∧ reports.find? (fun p => decide (p.task = t)) = some p := by
  obtain ⟨p, hp, rfl⟩ := List.mem_map.1 h
  obtain ⟨q, hq⟩ := Option.isSome_iff_exists.1
    (List.find?_isSome (p := fun q => decide (q.task = p.task)).2 ⟨p, hp, by simp⟩)
  exact ⟨q, List.mem_of_find?_eq_some hq, by simpa using List.find?_some hq, hq⟩

theorem told_of_not_mem (h : t ∉ reported batches) : told batches t = .ok none := by
  rw [told, find?_eq_none_of_not_mem h, Option.elim_none]

theorem reported_concat (batches : List (List (Report α))) (reports : List (Report α)) :
    reported (batches ++ [reports]) = reported batches ++ reports.map Report.task := by
  rw [reported, List.flatten_append, List.map_append, List.flatten_singleton]
  rfl

/-- What has been told stays as it was. -/
theorem told_concat_of_mem (h : t ∈ reported batches) (reports : List (Report α)) :
    told (batches ++ [reports]) t = told batches t := by
  obtain ⟨p, -, -, hp⟩ := exists_find?_of_mem h
  rw [told, told, List.flatten_append, List.find?_append, hp, Option.some_or]

/-- A report of a trial that has not been told of tells of it. -/
theorem told_concat_of_not_mem {workers : Nat} {play : Outcomes α} {tasks : List Task}
    (delivered : Delivers workers play tasks reports) (mem : t ∈ tasks) (new : t ∉ reported batches) :
    told (batches ++ [reports]) t = play t := by
  obtain ⟨p, hp, rfl, found⟩ := exists_find?_of_mem (delivered.perm_tasks.mem_iff.2 mem)
  rw [told, List.flatten_append, List.find?_append, find?_eq_none_of_not_mem new, Option.none_or,
    List.flatten_singleton, found, Option.elim_some, delivered.outcome_eq hp]

end

/-! ## The books of the batches -/

variable [Scalar α]

namespace Accounts

variable {antithetic : Bool} {play play' : Outcomes α} {candidates dealt : Nat}
  {field : List (Contender α)} {handed handed' : List Task}

/-- Books of the same trials, told in another way. -/
theorem congr (h : Accounts antithetic play candidates dealt field handed)
    (perm : handed.Perm handed') (same : ∀ t ∈ handed, play t = play' t) :
    Accounts antithetic play' candidates dealt field handed' where
  length_eq := h.length_eq
  revived_eq i c hc := by
    have credited_eq : credited play handed i = credited play' handed' i := by
      funext n
      by_cases mem : ⟨i, n⟩ ∈ handed
      · rw [credited, credited, if_pos mem, if_pos (perm.mem_iff.1 mem), Outcomes.value?,
          Outcomes.value?, same _ mem]
      · rw [credited, credited, if_neg mem, if_neg fun mem' => mem (perm.mem_iff.2 mem')]
    rw [← credited_eq]
    exact h.revived_eq i c hc
  nodup := perm.nodup_iff.1 h.nodup
  lt t ht := h.lt t (perm.mem_iff.2 ht)

/-- **The moments of a contender are those of its observations**, also over more trials than have been
dealt. -/
theorem moments_eq (h : Accounts antithetic play candidates dealt field handed) {i n : Nat}
    (le : dealt ≤ n) {c : Contender α} (hc : field[i]? = some c) :
    c.moments = .ofList (observations antithetic (credited play handed i) n) := by
  have undealt : ∀ t, dealt ≤ t → credited play handed i t = none := fun t ht =>
    if_neg fun old => absurd (h.lt _ old).2 (Nat.not_lt.2 ht)
  rw [observations_eq_of_le le undealt]
  exact (congrArg Contender.moments (h.revived_eq i c hc)).trans (Contender.moments_fed ..)

end Accounts

variable [RealFunctions α] {c : Settings α} {crew : Crew (StateM σ) α} {candidates workers : Nat}
  {possible : Outcomes α → Prop} {batches : List (List (Report α))}

/-- **The contenders hold what the reports tell.** -/
theorem InTurn.accounts (h : InTurn c candidates (Brings workers possible) batches)
    (pos : 0 < c.batchSize) :
    Accounts c.antithetic (told batches) candidates (c.dealt batches.length)
        (c.contendersAfter candidates batches) (reported batches) ∧
      ∀ p ∈ batches.flatten, told batches p.task = p.outcome := by
  induction h with
  | start =>
    rw [List.length_nil, Settings.dealt_zero]
    exact ⟨.start .., nofun⟩
  | @batch batches reports _ left brought ih =>
    obtain ⟨books, tells⟩ := ih
    obtain ⟨play, -, delivered⟩ := brought
    obtain ⟨n, trials, dealt⟩ := Settings.batchTrials_eq pos left
    rw [trials] at delivered
    have new : ∀ t ∈ tasks (List.range' (c.dealt batches.length) n)
        (c.contendersAfter candidates batches), t ∉ reported batches := fun t ht old =>
      absurd (books.lt t old).2 (Nat.not_lt.2 (List.mem_range'_1.1 (mem_tasks.1 ht).1).1)
    have tells_new := fun t ht => told_concat_of_not_mem delivered ht (new t ht)
    have delivered' := delivered.congr fun t ht => (tells_new t ht).symm
    have books' := (books.congr (.refl _) fun t ht => (told_concat_of_mem ht reports).symm).absorbed
      delivered'
    rw [reported_concat, List.length_append, List.length_singleton, dealt,
      Settings.contendersAfter_concat]
    refine ⟨(books'.congr (.append_left _ delivered.perm_tasks.symm) fun _ _ => rfl).checked
      (StoppingRule.map_revived_check ..), ?_⟩
    rw [List.flatten_append, List.flatten_singleton]
    refine List.forall_mem_append.2 ⟨fun p hp => ?_, fun p hp => ?_⟩
    · rw [told_concat_of_mem (List.mem_map_of_mem hp), tells p hp]
    · rw [delivered'.outcome_eq hp]

/-! ## Trials that come to nothing -/

/-- **Some trials come to nothing**, and all others end as they would. -/
def Thinned (free play : Outcomes α) : Prop := ∀ t, play t = .ok none ∨ play t = free t

variable {free : Outcomes α}

/-- What is told of thinned trials. -/
theorem InTurn.thinned (h : InTurn c candidates (Brings workers (Thinned free)) batches)
    (tells : ∀ p ∈ batches.flatten, told batches p.task = p.outcome) : Thinned free (told batches) := by
  intro t
  by_cases mem : t ∈ reported batches
  · obtain ⟨p, hp, rfl⟩ := List.mem_map.1 mem
    obtain ⟨reports, hr, hpr⟩ := List.mem_flatten.1 hp
    obtain ⟨tasks, play, thinned, delivered⟩ := h.exists_tasks reports hr
    rw [tells p hp, delivered.outcome_eq hpr]
    exact thinned p.task
  · exact .inl (told_of_not_mem mem)

omit [Scalar α] [RealFunctions α] in
/-- A whole batch of thinned trials is one of which nothing is lost. -/
theorem delivers_of_whole {play : Outcomes α} {tasks : List Task} {reports : List (Report α)}
    (delivered : Delivers workers play tasks reports) (thinned : Thinned free play)
    (all : whole reports = true) : Delivers workers free tasks reports := by
  refine delivered.congr fun t ht => ?_
  obtain ⟨p, hp, rfl⟩ := List.mem_map.1 (delivered.perm_tasks.mem_iff.2 ht)
  refine (thinned p.task).resolve_left fun nothing => ?_
  have finished := List.all_eq_true.1 all p hp
  rw [delivered.outcome_eq hp, nothing] at finished
  cases finished

/-- **The run that nobody cancels keeps step**, batch by batch. -/
theorem Advance.exists_alike {crew₀ : Crew (StateM σ') α} {workers₀ : Nat} {x x' : Stage σ α}
    {y : Stage σ' α} (step : Advance c crew x x')
    (crew_plays : crew.PlayedAmong workers (Thinned free)) (plays₀ : crew₀.PlayedBy workers₀ free)
    (uncancelled : ∀ batch s, ((crew₀.cancelled batch).run s).1 = false) (left_eq : y.left = x.left)
    (field_eq : y.state.field = x.state.field) :
    ∃ y', Advance c crew₀ y y' ∧ y'.left = x'.left ∧ y'.state.field = x'.state.field := by
  obtain @⟨reports, s, s', now, ⟨pos, s₁, ask, play⟩, sound, uncut, goOn, clock⟩ := step
  obtain ⟨some_play, thinned, delivered⟩ := crew_plays (x.batch c) (x.tasks c) s₁
  rw [play] at delivered
  replace delivered := delivers_of_whole delivered thinned (whole_iff.2 ⟨sound, uncut⟩)
  have tasks_eq : y.tasks c = x.tasks c := by
    rw [Stage.tasks, Stage.tasks, Stage.batch, Stage.batch, left_eq, field_eq]
  rcases ask₀ : (crew₀.cancelled (y.batch c)).run y.world with ⟨asked, v₁⟩
  obtain rfl : asked = false := (congrArg Prod.fst ask₀).symm.trans (uncancelled _ _)
  rcases play₀ : (crew₀.perform (y.batch c) (y.tasks c)).run v₁ with ⟨reports₀, v⟩
  have delivered₀ := plays₀ (y.batch c) (y.tasks c) v₁
  rw [play₀, tasks_eq] at delivered₀
  have sound₀ : failure? reports₀ = none := by
    rwa [failure?_eq_none_iff delivered₀, ← failure?_eq_none_iff delivered]
  have uncut₀ : anyInterrupted reports₀ = false := by
    rwa [Bool.eq_false_iff, ne_eq, anyInterrupted_eq_true_iff delivered₀,
      ← anyInterrupted_eq_true_iff delivered, ← ne_eq, ← Bool.eq_false_iff]
  have absorbed_eq : (y.absorbed c reports₀).field = (x.absorbed c reports).field := by
    rw [Stage.absorbed, Stage.absorbed, field_eq]
    exact absorbAll_eq delivered₀ delivered c.antithetic
  rcases clock₀ : (crew₀.clock (y.batch c)).run v with ⟨now₀, v'⟩
  have goOn₀ : y.stopReason? c reports₀ = none := by
    rwa [Stage.stopReason?, absorbed_eq]
  refine ⟨_, .mk ⟨left_eq ▸ pos, v₁, ask₀, play₀⟩ sound₀ uncut₀ goOn₀ clock₀,
    congrArg (· - 1) left_eq, ?_⟩
  rw [RunState.field_shown, RunState.field_shown, Stage.checked, Stage.checked, absorbed_eq]

theorem Reaches.exists_alike {crew₀ : Crew (StateM σ') α} {workers₀ : Nat} {s : σ} {x : Stage σ α}
    (reach : Reaches c crew (.first c candidates s) x)
    (crew_plays : crew.PlayedAmong workers (Thinned free)) (plays₀ : crew₀.PlayedBy workers₀ free)
    (uncancelled : ∀ batch s, ((crew₀.cancelled batch).run s).1 = false) (s₀ : σ') :
    ∃ y, Reaches c crew₀ (.first c candidates s₀) y ∧ y.left = x.left ∧
      y.state.field = x.state.field := by
  induction reach with
  | refl => exact ⟨_, .refl, rfl, rfl⟩
  | tail _ step ih =>
    obtain ⟨y, reach₀, left_eq, field_eq⟩ := ih
    obtain ⟨y', step₀, alike⟩ := step.exists_alike crew_plays plays₀ uncancelled left_eq field_eq
    exact ⟨y', reach₀.tail step₀, alike⟩

/-! ## The end of the run -/

variable {events : List (Event α)} {r : Run α} {cut : Option (List (Report α))}
  {field : List (Contender α)} {status : Status} {shots : List (Snapshot α)}

omit [RealFunctions α] in
theorem map_live_absorbAll (antithetic : Bool) (field : List (Contender α))
    (reports : List (Report α)) :
    (absorbAll antithetic field reports).map Contender.live = field.map Contender.live := by
  conv_rhs => rw [← List.zipIdx_map_fst 0 field, List.map_map]
  rw [absorbAll, List.map_map]
  exact List.map_congr_left fun x _ => x.1.live_absorbEach antithetic (resultsOf x.2 reports)

/-- **Who is live at the end** was live after the last check. -/
theorem Closed.map_live (h : Closed c candidates events r batches cut field status shots) :
    field.map Contender.live = (c.contendersAfter candidates batches).map Contender.live := by
  rw [h.field_eq]
  cases cut with
  | none => rfl
  | some reports => exact map_live_absorbAll ..

/-- A batch is cut short just when a trial has come to nothing. -/
theorem Closed.isSome_cut_iff (h : Closed c candidates events r batches cut field status shots) :
    cut.isSome = true ↔ ∃ reports ∈ played events, ∃ p ∈ reports, p.outcome = .ok none := by
  rw [h.played_eq]
  constructor
  · intro some_cut
    obtain ⟨reports, rfl⟩ := Option.isSome_iff_exists.1 some_cut
    exact ⟨reports, by simp, anyInterrupted_iff.1 (h.cut_short reports rfl).2⟩
  · rintro ⟨reports, mem, lost⟩
    rcases List.mem_append.1 mem with mem | mem
    · have uncut := (whole_iff.1 (h.whole reports mem)).2
      rw [anyInterrupted_iff.2 lost] at uncut
      cases uncut
    · exact Option.isSome_iff_exists.2 ⟨reports, Option.mem_toList.1 mem⟩

/-- The books of a run that has a result, whether or not its last batch was finished. -/
theorem Closed.accounts (h : Closed c candidates events r batches cut field status shots)
    (dealt : InTurn c candidates (Brings workers possible) (played events)) (pos : 0 < c.batchSize) :
    Accounts c.antithetic (told (played events)) candidates (c.dealt (played events).length) field
      (reported (played events)) := by
  have books := (dealt.accounts pos).1
  refine books.checked ?_
  rw [h.field_eq, h.played_eq]
  cases cut with
  | none => rw [Option.toList_none, List.append_nil]; rfl
  | some reports =>
    rw [Option.toList_some, Settings.contendersAfter_concat]
    exact (StoppingRule.map_revived_check ..).symm

/-- **A result counts every vector that is told**, once, and no other. -/
theorem Closed.counts_told (h : Closed c candidates events r batches cut field status shots)
    (dealt : InTurn c candidates (Brings workers possible) (played events)) (pos : 0 < c.batchSize)
    (i : Nat) (x : CandidateResult α) (hx : (field.map (·.result c.antithetic))[i]? = some x) :
    let seen := observations c.antithetic (fun t => (told (played events)).value? ⟨i, t⟩) c.trials
    x.mean = (Moments.ofList seen).mean ∧ x.stdError = (Moments.ofList seen).stdError ∧
      x.trials = if c.antithetic then 2 * seen.length else seen.length := by
  intro seen
  rw [List.getElem?_map] at hx
  obtain ⟨contender, hc, rfl⟩ := Option.map_eq_some_iff.1 hx
  -- a trial that is not reported is told to have come to nothing
  have all : credited (told (played events)) (reported (played events)) i =
      fun t => (told (played events)).value? ⟨i, t⟩ := by
    funext t
    by_cases mem : ⟨i, t⟩ ∈ reported (played events)
    · exact if_pos mem
    · rw [credited, if_neg mem, Outcomes.value?, told_of_not_mem mem, finished?]
  have moments := (h.accounts dealt pos).moments_eq (Nat.min_le_right _ c.trials) hc
  rw [all] at moments
  refine ⟨congrArg Moments.mean moments, congrArg Moments.stdError moments, ?_⟩
  rw [Contender.result, Contender.trials, moments, Moments.count_ofList, Nat.mul_comm]

/-- **A cancelled run is undamaged**: its result is that of the trials it tells of, and these have ended
as the free ones would, or have come to nothing. -/
structure Undamaged (c : Settings α) (candidates : Nat) (free : Outcomes α) (events : List (Event α))
    (result : Result α) : Prop where
  /-- The run is interrupted just when the caller has wanted it to end before a batch, or a trial has
  come to nothing. -/
  interrupted_iff : result.status = .interrupted ↔ Event.asked true ∈ events ∨
    ∃ reports ∈ played events, ∃ p ∈ reports, p.outcome = .ok none
  tells : ∀ p ∈ (played events).flatten, told (played events) p.task = p.outcome
  thinned : Thinned free (told (played events))
  /-- Every vector that is told counts, once, and no other. -/
  counts : ∀ (i : Nat) (x : CandidateResult α), result.candidates[i]? = some x →
    let seen := observations c.antithetic (fun t => (told (played events)).value? ⟨i, t⟩) c.trials
    x.mean = (Moments.ofList seen).mean ∧ x.stdError = (Moments.ofList seen).stdError ∧
      x.trials = if c.antithetic then 2 * seen.length else seen.length
  /-- Who is eliminated was so after the last check, that of the last whole batch. -/
  eliminated_eq : result.candidates.map (fun x => !x.eliminated) =
    (c.contendersAfter candidates ((played events).filter whole)).map Contender.live
  /-- At most one batch is not whole, and it is the last. -/
  exists_cut : ∃ cut : Option (List (Report α)),
    played events = (played events).filter whole ++ cut.toList
  /-- A run of the free trials that nobody cancels passes through the same contenders after the batches
  before the interruption. -/
  keepsStep : result.status = .interrupted → ∀ {σ' : Type} (crew₀ : Crew (StateM σ') α)
    (workers₀ : Nat) (s₀ : σ'), crew₀.PlayedBy workers₀ free →
    (∀ batch s, ((crew₀.cancelled batch).run s).1 = false) →
    ∃ y, Reaches c crew₀ (.first c candidates s₀) y ∧
      y.batch c = ((played events).filter whole).length ∧
      y.state.field = c.contendersAfter candidates ((played events).filter whole)

/-- **A run of thinned trials is undamaged.** -/
theorem exists_undamaged (valid : c.validate = .ok ())
    (crew_plays : crew.PlayedAmong workers (Thinned free)) (s : σ)
    (sound : ∀ reports ∈ played (trace c crew candidates s), ∀ p ∈ reports, ∀ e,
      p.outcome ≠ .error e) :
    ∃ result, ((run c crew candidates).run s).1.ending = .ok result ∧
      Undamaged c candidates free (trace c crew candidates s) result := by
  have pos := (Settings.pos_of_validate valid).2.1
  have dealt := Crew.PlayedAmong.inTurn crew_plays valid candidates s
  have tells := (dealt.accounts pos).2
  obtain ⟨last, w, reach, hlast, ends, record⟩ := exists_told valid crew candidates s
  rw [← record] at sound dealt tells ⊢
  rcases ends.failed_or_closed hlast with
    ⟨reports, e, -, failed⟩ | ⟨batches, cut, field, status, shots, closed, before⟩
  · obtain ⟨p, hp, e', error, -⟩ := exists_error_of_failure? failed.failed
    exact absurd error (sound reports (by simp [failed.played_eq]) p hp e')
  refine ⟨_, closed.ending, closed.interrupted_iff.trans (or_congr_right closed.isSome_cut_iff),
    tells, dealt.thinned tells, ?_, ?_, ⟨cut, ?_⟩, ?_⟩
  · exact closed.counts_told dealt pos
  · rw [closed.filter_whole, ← closed.map_live, List.map_map]
    exact List.map_congr_left fun x _ => Bool.not_not x.live
  · rw [closed.filter_whole]
    exact closed.played_eq
  · intro interrupted σ' crew₀ workers₀ s₀ plays₀ uncancelled
    obtain ⟨y, reach₀, left_eq, field_eq⟩ :=
      reach.untraced.exists_alike crew_plays plays₀ uncancelled s₀
    rw [closed.filter_whole, before interrupted, hlast.length_played]
    exact ⟨y, reach₀, congrArg (c.batches - ·) left_eq, field_eq.trans hlast.tells.field_eq⟩

/-! ## Trials of an arena -/

section

variable {δ Board Move : Type} {a : Arena (StateM (τ × κ)) δ α Board Move} {isSet : κ → Bool}

omit [RealFunctions α] in
/-- **The trials of an arena whose polls see a token are thinned**, whenever they are begun. -/
theorem Arena.PollsToken.thinned (token : a.PollsToken isSet) (start : Nat → δ) (horizon : Nat)
    (pool : Array (Candidate Board)) (env : Task → τ) (moment idle : Task → κ) :
    Thinned (a.uncancelled.outcomesIn start horizon pool fun t => (env t, idle t))
      (a.outcomesIn start horizon pool fun t => (env t, moment t)) := by
  intro t
  rw [outcomesIn, outcomesIn, perform, perform]
  cases pool[t.candidate]? with
  | none => exact .inl rfl
  | some x =>
    exact (token.play_eq_or_none horizon x.board x.stakes (start t.trial) (env t) (moment t)
      (idle t)).imp_right And.left

/-- **Cancellation corrupts neither trials nor runs.**  A trial that may be interrupted at any moment
comes to nothing or to what it would have come to, and draws no roll if it is begun too late.  A run
whose trials are begun at any moments, and do not fail, has a result, and is undamaged: it is interrupted
just when the caller has wanted it to end before a batch or a trial has come to nothing, all that it
counts are vectors of trials that nobody cancels, and up to the interruption it is the run that nobody
cancels. -/
theorem cancellation_corrupts_nothing (token : a.PollsToken isSet) (start : Nat → δ)
    (horizon : Nat) :
    (∀ board stakes dice w k,
      (∀ k', ((a.play horizon board stakes dice).run.run (w, k)).1 = .ok none ∨
        (((a.play horizon board stakes dice).run.run (w, k)).1 =
            ((a.uncancelled.play horizon board stakes dice).run.run (w, k')).1 ∧
          ((a.play horizon board stakes dice).run.run (w, k)).2.1 =
            ((a.uncancelled.play horizon board stakes dice).run.run (w, k')).2.1)) ∧
      ((a.uncancelled.play horizon board stakes dice).run.run (w, k)).1 ≠ .ok none ∧
      (isSet k = true → ∀ roll,
        (({ a with roll } : Arena _ δ α Board Move).play horizon board stakes dice).run.run (w, k) =
          (a.play horizon board stakes dice).run.run (w, k))) ∧
    ∀ (pool : Array (Candidate Board)) (env : Task → τ) (idle : Task → κ) (workers : Nat)
      (crew : Crew (StateM σ) α), a.settings.validate = .ok () →
      crew.PlayedAmong workers (fun play => ∃ moment : Task → κ,
        play = a.outcomesIn start horizon pool fun t => (env t, moment t)) →
      ∀ s, (∀ reports ∈ played (trace a.settings crew pool.size s), ∀ p ∈ reports, ∀ e,
        p.outcome ≠ .error e) →
      ∃ result, ((run a.settings crew pool.size).run s).1.ending = .ok result ∧
        Undamaged a.settings pool.size
          (a.uncancelled.outcomesIn start horizon pool fun t => (env t, idle t))
          (trace a.settings crew pool.size s) result := by
  refine ⟨fun board stakes dice w k => ⟨?_, ?_, ?_⟩, ?_⟩
  · exact token.play_eq_or_none horizon board stakes dice w k
  · exact Arena.playOn_uncancelled_ne_none a horizon _ (w, k)
  · exact fun set => token.play_of_isSet set horizon board stakes dice w
  · intro pool env idle workers crew valid crew_plays s sound
    have thinned : crew.PlayedAmong workers (Thinned
        (a.uncancelled.outcomesIn start horizon pool fun t => (env t, idle t))) := by
      intro batch tasks s
      obtain ⟨play, ⟨moment, rfl⟩, delivered⟩ := crew_plays batch tasks s
      exact ⟨_, token.thinned start horizon pool env moment idle, delivered⟩
    exact exists_undamaged valid thinned s sound

end

/-! ### A caller out of patience -/

/-- Games in which every roll brings the end one turn nearer.  The token is set after so many rolls. -/
def impatient : Arena (StateM (Unit × Nat)) Nat Rat Nat Unit where
  game :=
    { legalMoves := fun _ _ => [()]
      play := fun n _ => n - 1
      pass := id
      outcome? := fun n => if n = 0 then some ⟨.opponent, .single⟩ else none }
  evaluator _ _ _ := pure .zero
  met := ⟨fun _ _ _ => 1 / 2⟩
  settings := { Settings.standard with trials := 2, batchSize := 2, cubeful := false }
  roll n := do
    modify fun w => (w.1, w.2 - 1)
    return (⟨1, 2⟩, n)
  interrupted _ := return (← get).2 == 0

theorem pollsToken_impatient : impatient.PollsToken (· == 0) where
  evaluator _ _ _ _ _ _ := ⟨rfl, rfl⟩
  roll _ _ _ _ := ⟨rfl, rfl⟩
  interrupted _ _ _ := ⟨rfl, rfl⟩

open Exact in
/-- Of two trials of two rolls each, the first is begun in time and counts; the token is set after the
first roll of the second. -/
theorem impatient_undamaged :
    let pool : Array (Candidate Nat) := #[⟨2, .money .zero⟩]
    let crew := Crew.inOrder (impatient.outcomesIn id 4 pool fun t => ((), 3 - 2 * t.trial))
    ((impatient.play 4 2 (.money .zero) 0).run.run ((), 3)).1 =
      ((impatient.uncancelled.play 4 2 (.money .zero) 0).run.run ((), 0)).1 ∧
    ∃ result : Result Rat, ((run impatient.settings crew 1).run ()).1.ending = .ok result ∧
      result.status = .interrupted ∧ ∀ x, result.candidates[0]? = some x → x.trials = 1 := by
  intro pool crew
  have crew_plays : crew.PlayedAmong 4 fun play => ∃ moment : Task → Nat,
      play = impatient.outcomesIn id 4 pool fun t => ((), moment t) :=
    (Crew.playedBy_inOrder (by decide) _).among ⟨_, rfl⟩
  have valid : impatient.settings.validate = .ok () := by decide +kernel
  have seen : (played (trace impatient.settings crew 1 ())).map (fun reports =>
      ((failure? reports).isNone, anyInterrupted reports)) = [(true, true)] := by decide +kernel
  obtain ⟨reports, one, facts⟩ := List.map_eq_singleton_iff.1 seen
  obtain ⟨unfailed, lost⟩ := by simpa only [Prod.mk.injEq] using facts
  have sound : ∀ batch ∈ played (trace impatient.settings crew 1 ()), ∀ p ∈ batch, ∀ e,
      p.outcome ≠ .error e := by
    intro batch mem p hp e failed
    rw [one, List.mem_singleton] at mem
    subst mem
    exact failure?_ne_none_of_error hp failed (Option.isNone_iff_eq_none.1 unfailed)
  obtain ⟨trials, runs⟩ := @cancellation_corrupts_nothing Unit _ _ _ _ _ _ _ _ _ _
    pollsToken_impatient id 4
  obtain ⟨result, ok, undamaged⟩ := runs pool (fun _ => ()) (fun _ => 0) 4 crew valid crew_plays ()
    sound
  refine ⟨?_, result, ok, ?_, fun x hx => ?_⟩
  · have inTime := (trials 2 (.money .zero) 0 () 3).1 0
    exact (inTime.resolve_left (by decide +kernel)).1
  · exact undamaged.interrupted_iff.2 (.inr ⟨reports, by simp [pool, one], anyInterrupted_iff.1 lost⟩)
  · have counted : (observations false (fun t =>
        (told (played (trace impatient.settings crew 1 ()))).value? ⟨0, t⟩) 2).length = 1 := by
      decide +kernel
    exact (undamaged.counts 0 x hx).2.2.trans counted

end Backgammon.Rollout
