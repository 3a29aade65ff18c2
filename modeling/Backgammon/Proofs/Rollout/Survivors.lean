import Backgammon.Proofs.Rollout.Leader
import Backgammon.Proofs.Rollout.Ledger
import Mathlib.Algebra.Order.Floor.Div

/-!
# Proofs/Rollout/Survivors — who is left at a check, and why the run stopped there

    before ──check──▸ after ──check──▸ ⋯ ──check──▸ after ──▸ results
                        ∋ leader         ∋ leader      ∋ leader

A check may drop contenders, and never the last of them: it drops who is too far behind the leader, and
the leader stays.  When a run stops early, its results bear the reason out.

* `Check` — the contenders before and after a check of a run.
* `CheckSound` — what a check may do: nobody is dropped without need, and somebody stays.
* `StoppingRule.checkSound` — every check of a rule is sound where somebody is live.
* `results_of_stoppedEarly` — the results of a run that stops early are those of its last check.
* `length_handedOut_le` — a run hands out no more batches than its trials need.
* `status_justified` — all of it for every run that has a result.
-/

namespace Backgammon.Rollout

open Relation

variable {σ α : Type} [Scalar α] [RealFunctions α]

/-! ## One check -/

/-- **What a check may do.**  The results stay as they are, somebody is live afterwards, the leader is
when contenders are dropped, and who is dropped has been far enough behind the leader for long
enough. -/
structure CheckSound (r : StoppingRule α) (key : Component) (before after : List (Contender α)) :
    Prop where
  results_eq : after.map Contender.revived = before.map Contender.revived
  seated : ∃ i, i ∈ seats after
  leader_seated : r.stopOnJsd = true → (∃ d ∈ before, 0 < d.moments.count) →
    ∃ i l, IsLeader key before i l ∧ i ∈ seats after
  dropped : ∀ i ∈ seats before, i ∉ seats after → ∃ d j l, before[i]? = some d ∧
    IsLeader key before j l ∧ r.minGamesJsd ≤ d.moments.count ∧ r.minGamesJsd ≤ l.moments.count ∧
    (separation l.moments d.moments key).exceeds r.jsdLimit = true

/-- A contender after a check had the same results before it. -/
theorem CheckSound.exists_before {r : StoppingRule α} {key : Component}
    {before after : List (Contender α)} (h : CheckSound r key before after) {i : Nat}
    {d : Contender α} (hd : after[i]? = some d) :
    ∃ b, before[i]? = some b ∧ b.moments = d.moments := by
  have at_i : (after.map Contender.revived)[i]? = (before.map Contender.revived)[i]? := by
    rw [h.results_eq]
  rw [List.getElem?_map, List.getElem?_map, hd] at at_i
  obtain ⟨b, hb, same⟩ := Option.map_eq_some_iff.1 at_i.symm
  exact ⟨b, hb, (congrArg Contender.moments same :)⟩

/-- **The only contender left is the leader**: nobody with results outranks it. -/
theorem CheckSound.rankLE_of_alone {r : StoppingRule α} {key : Component}
    {before after : List (Contender α)} (h : CheckSound r key before after)
    (on : r.stopOnJsd = true) {place : Nat} {survivor : Contender α}
    (at_place : after[place]? = some survivor) (alone : ∀ i ∈ seats after, i = place)
    {d : Contender α} (hd : d ∈ after) (results : 0 < d.moments.count) :
    Scalar.rankLE (d.moments.mean.get key) (survivor.moments.mean.get key) = true := by
  obtain ⟨j, hj⟩ := List.mem_iff_getElem?.1 hd
  obtain ⟨b, hb, same⟩ := h.exists_before hj
  rw [← same] at results ⊢
  obtain ⟨i, l, leads, seat⟩ := h.leader_seated on ⟨b, List.mem_of_getElem? hb, results⟩
  obtain rfl := alone i seat
  obtain ⟨k, hk, same⟩ := h.exists_before at_place
  obtain rfl := Option.some.inj (hk.symm.trans leads.place)
  rw [← same]
  exact leads.greatest j b hb results

namespace StoppingRule

variable {r : StoppingRule α} {key : Component} {field : List (Contender α)} {i : Nat}
  {d l : Contender α}

/-- Who is live and not kept has had games enough, as the leader has, and is too far from it. -/
theorem exceeds_of_not_keeps (live : d.live = true) (out : r.keeps key l d = false) :
    r.minGamesJsd ≤ d.moments.count ∧ r.minGamesJsd ≤ l.moments.count ∧
      (separation l.moments d.moments key).exceeds r.jsdLimit = true := by
  rw [keeps] at out
  split at out
  · exact absurd (live.symm.trans out) (by decide)
  next enough =>
    obtain ⟨own, leader's⟩ := not_or.1 enough
    refine ⟨Nat.not_lt.1 own, Nat.not_lt.1 leader's, ?_⟩
    split at out
    · assumption
    · simp [live] at out

/-- A check leaves the contenders as they are unless contenders may be dropped and somebody leads. -/
theorem fst_check_eq_self (h : r.stopOnJsd = true → leader? key field = none) :
    (r.check key field).1 = field := by
  rw [fst_check]
  split
  next on => rw [eliminate, h on]
  next => rfl

theorem length_fst_check (r : StoppingRule α) (key : Component) (field : List (Contender α)) :
    (r.check key field).1.length = field.length := by
  simpa using congrArg List.length (r.map_revived_check key field)

variable [Scalar.LawfulRank α]

/-- **A check is sound** where somebody is live. -/
theorem checkSound (r : StoppingRule α) (key : Component) {field : List (Contender α)}
    (someone : ∃ i, i ∈ seats field) : CheckSound r key field (r.check key field).1 where
  results_eq := r.map_revived_check key field
  seated := by
    by_cases idle : r.stopOnJsd = true → leader? key field = none
    · rwa [fst_check_eq_self idle]
    · obtain ⟨on, leads⟩ := Classical.not_imp.1 idle
      obtain ⟨best, leads⟩ := Option.ne_none_iff_exists'.1 leads
      exact ⟨best, leader_mem_seats_check on leads⟩
  leader_seated on results := by
    obtain ⟨i, l, leads⟩ := exists_isLeader_iff.2 results
    exact ⟨i, l, leads, leader_mem_seats_check on (leader?_eq_some_iff.2 ⟨l, leads⟩)⟩
  dropped i live out := by
    by_cases idle : r.stopOnJsd = true → leader? key field = none
    · exact absurd live (fst_check_eq_self idle ▸ out)
    · obtain ⟨on, leads⟩ := Classical.not_imp.1 idle
      obtain ⟨best, leads⟩ := Option.ne_none_iff_exists'.1 leads
      obtain ⟨l, leading⟩ := leader?_eq_some_iff.1 leads
      obtain ⟨d, hd, live⟩ := mem_seats.1 live
      have trails : i ≠ best := by
        rintro rfl
        exact out (leader_mem_seats_check on leads)
      have not_kept : r.keeps key l d = false := by
        refine Bool.eq_false_iff.2 fun kept => out (mem_seats.2 ⟨{ d with live := true }, ?_, rfl⟩)
        rw [fst_check, if_pos on, eliminate, leads]
        simp [hd, leading.place, trails, kept]
      exact ⟨d, best, l, hd, leading, exceeds_of_not_keeps live not_kept⟩

omit [Scalar.LawfulRank α]

/-- The reason that a check gives, read off the contenders after it. -/
theorem snd_check (r : StoppingRule α) (key : Component) (field : List (Contender α)) :
    (r.check key field).2 =
      let after := (r.check key field).1
      if r.stopOnJsd && decide (1 < after.length) && decide (after.countP Contender.live ≤ 1) then
        some .singleCandidate
      else if r.stopOnStd && r.allSettled key after then some .stdLimit else none := by
  rw [fst_check, check]
  dsimp only
  generalize (if r.stopOnJsd then r.eliminate key field else field) = after
  split
  · rfl
  · split <;> rfl

/-- A run stops for want of other candidates when there are others and at most one is live. -/
theorem countP_live_of_check (h : (r.check key field).2 = some .singleCandidate) :
    r.stopOnJsd = true ∧ 1 < field.length ∧
      (r.check key field).1.countP Contender.live ≤ 1 := by
  rw [snd_check] at h
  dsimp only at h
  split at h
  next alone =>
    rw [r.length_fst_check] at alone
    simpa [and_assoc] using alone
  next => simp at h

/-- A run stops for its standard errors when those of all live contenders are settled. -/
theorem allSettled_of_check (h : (r.check key field).2 = some .stdLimit) :
    r.allSettled key (r.check key field).1 = true := by
  rw [snd_check] at h
  dsimp only at h
  split at h
  · simp at h
  · split at h
    next settled => exact (Bool.and_eq_true_iff.1 settled).2
    next => simp at h

end StoppingRule

omit [Scalar α] [RealFunctions α] in
theorem length_seats (field : List (Contender α)) :
    (seats field).length = field.countP Contender.live := by
  rw [seats, List.length_map, ← List.countP_eq_length_filter]
  conv_rhs => rw [← List.zipIdx_map_fst 0 field, List.countP_map]
  rfl

omit [Scalar α] [RealFunctions α] in
/-- Of at most one live contender there are no two places. -/
theorem eq_of_mem_seats {field : List (Contender α)} (one : field.countP Contender.live ≤ 1)
    {i j : Nat} (hi : i ∈ seats field) (hj : j ∈ seats field) : i = j := by
  rw [← length_seats] at one
  obtain ⟨place, alone⟩ :=
    List.length_eq_one_iff.1 (Nat.le_antisymm one (List.length_pos_of_mem hi))
  rw [alone] at hi hj
  rw [List.mem_singleton.1 hi, List.mem_singleton.1 hj]

/-! ## The checks of a run -/

/-- **A check of a run**: the contenders before and after it, once a batch is played in which no trial
fails or is interrupted. -/
inductive Check (c : Settings α) (crew : Crew (StateM σ) α) (candidates : Nat) (s : σ) :
    List (Contender α) → List (Contender α) → Prop
  | mk {x reports s'} (reach : Reaches c crew (.first c candidates s) x)
      (played : Plays c crew x reports s') (sound : failure? reports = none)
      (whole : anyInterrupted reports = false) :
      Check c crew candidates s (x.absorbed c reports).field (x.checked c reports).field

variable {c : Settings α} {crew : Crew (StateM σ) α} {x y : Stage σ α} {candidates : Nat} {s : σ}
  {r : Run α} {result : Result α}

/-- All candidates are still in the field, and somebody is live. -/
structure Stage.Seated (candidates : Nat) (x : Stage σ α) : Prop where
  length_eq : x.state.field.length = candidates
  someone : ∃ i, i ∈ seats x.state.field

namespace Stage.Seated

omit [RealFunctions α] in
theorem first (c : Settings α) (pos : 0 < candidates) (s : σ) :
    (Stage.first c candidates s).Seated candidates where
  length_eq := List.length_replicate
  someone := ⟨0, mem_seats.2 ⟨.fresh, by simp [Stage.first, pos], rfl⟩⟩

omit [RealFunctions α] in
theorem absorbed (hx : x.Seated candidates) (c : Settings α) (reports : List (Report α)) :
    (x.absorbed c reports).field.length = candidates ∧
      ∃ i, i ∈ seats (x.absorbed c reports).field :=
  ⟨(length_absorbAll ..).trans hx.length_eq, hx.someone.imp fun _ => mem_seats_absorbAll.2⟩

variable [Scalar.LawfulRank α]

theorem advance (hx : x.Seated candidates) (step : Advance c crew x y) : y.Seated candidates := by
  obtain @⟨reports, _, _, _, -, -, -, -, -⟩ := step
  obtain ⟨length_eq, someone⟩ := hx.absorbed c reports
  refine ⟨?_, ?_⟩ <;> rw [RunState.field_shown]
  · exact (StoppingRule.length_fst_check ..).trans length_eq
  · exact (c.stopping.checkSound c.key someone).seated

/-- At every stage of a run somebody is live. -/
theorem of_reaches (pos : 0 < candidates) (reach : Reaches c crew (.first c candidates s) x) :
    x.Seated candidates := by
  induction reach with
  | refl => exact .first c pos s
  | tail _ step ih => exact ih.advance step

end Stage.Seated

/-- **Every check of a run is sound.** -/
theorem Check.sound [Scalar.LawfulRank α] {before after : List (Contender α)}
    (pos : 0 < candidates) (check : Check c crew candidates s before after) :
    CheckSound c.stopping c.key before after := by
  obtain ⟨reach, -, -, -⟩ := check
  exact c.stopping.checkSound c.key ((Stage.Seated.of_reaches pos reach).absorbed c _).2

/-- **The results of a run that stops early** are those of the contenders after its last check, which
gave the reason. -/
theorem results_of_stoppedEarly {reason : StopReason}
    (ok : ((run c crew candidates).run s).1.ending = .ok result)
    (early : result.status = .stoppedEarly reason) :
    ∃ before, Check c crew candidates s before (c.stopping.check c.key before).1 ∧
      before.length = candidates ∧ (c.stopping.check c.key before).2 = some reason ∧
      result.candidates =
        (c.stopping.check c.key before).1.map (·.result c.antithetic) := by
  obtain ⟨last, reach, ends⟩ := exists_reaches_run (validate_of_ending ok) crew candidates s
  have length_eq : last.state.field.length = candidates := by
    clear ends
    induction reach with
    | refl => exact List.length_replicate
    | tail _ step ih =>
      obtain ⟨-, -, -, -, -⟩ := step
      rw [RunState.field_shown]
      exact (StoppingRule.length_fst_check ..).trans ((length_absorbAll ..).trans ih)
  have closed {state : RunState α} {status : Status}
      (h : ((run c crew candidates).run s).1 = state.close c status) :
      result = ⟨state.field.map (·.result c.antithetic), status⟩ :=
    Except.ok.inj (ok.symm.trans (congrArg Run.ending h))
  generalize ((run c crew candidates).run s).1 = r at ends ok closed
  cases ends with
  | cancelled ask fin | completed none_left ask fin | interrupted played sound cut fin =>
    rw [closed (eq_close_of_finish fin)] at early
    exact nomatch early
  | failed played failed => exact nomatch ok
  | stopped played sound whole stop clock fin =>
    have result_eq := closed (eq_close_of_finish fin)
    rw [RunState.field_shown] at result_eq
    rw [result_eq] at early
    obtain rfl := Status.stoppedEarly.inj early
    exact ⟨_, .mk reach played sound whole,
      (length_absorbAll ..).trans length_eq, stop, congrArg Result.candidates result_eq⟩

/-! ## The batches of a run -/

/-- The ledger of a stage has an entry for every batch so far. -/
structure Stage.Counted (c : Settings α) (x : Stage (σ × List (List Task)) α) : Prop where
  left_le : x.left ≤ c.batches
  length_eq : x.world.2.length = x.batch c

/-- **A run hands out no more batches than its trials need.** -/
theorem length_handedOut_le (c : Settings α) (crew : Crew (StateM σ) α) (candidates : Nat) (s : σ) :
    (handedOut c crew candidates s).length ≤ c.batches := by
  cases valid : c.validate with
  | error e =>
    rw [handedOut, run, valid]
    exact Nat.zero_le _
  | ok _ =>
    have start : (Stage.first c candidates (s, [])).Counted c :=
      ⟨Nat.le_refl _, (Stage.batch_first ..).symm⟩
    obtain ⟨last, counted, ends⟩ := exists_last_stage valid crew.logged start
      fun x y step hx => by
        have ledger := step.unlogged.2
        obtain ⟨played, -, -, -, -⟩ := step
        refine ⟨(Nat.sub_le _ _).trans hx.left_le, ?_⟩
        rw [ledger, List.length_append, hx.length_eq]
        exact (Stage.batch_succ c x hx.left_le played.pos).symm
    rw [handedOut]
    generalize ((run c crew.logged candidates).run (s, [])).1 = r,
      ((run c crew.logged candidates).run (s, [])).2 = w at ends
    have so_far : last.world.2.length ≤ c.batches := counted.length_eq ▸ Nat.sub_le _ _
    have one_more {reports : List (Report α)} {w : σ × List (List Task)}
        (played : Plays c crew.logged last reports w) : w.2.length ≤ c.batches := by
      rw [played.unlogged.2, List.length_append, counted.length_eq]
      exact Stage.batch_lt c last counted.left_le played.pos
    cases ends with
    | cancelled ask fin | completed none_left ask fin =>
      rw [(finish_logged fin).2, (run_of_alongside ask).2]
      exact so_far
    | failed played failed => exact one_more played
    | interrupted played sound cut fin =>
      rw [(finish_logged fin).2]
      exact one_more played
    | stopped played sound whole stop clock fin =>
      have ledger := (finish_logged fin).2
      rw [worldShown_logged] at ledger
      rw [ledger, (run_of_alongside clock).2]
      exact one_more played

/-! ## The whole run -/

/-- The observations behind the result of a candidate. -/
def CandidateResult.observations (antithetic : Bool) (x : CandidateResult α) : Nat :=
  if antithetic then x.trials / 2 else x.trials

/-- **The result of a candidate is settled** in a number: its standard error, relative to its mean
unless that is next to zero, is within the limit. -/
def CandidateResult.Settled (r : StoppingRule α) (o : Component) (x : CandidateResult α) : Prop :=
  (Scalar.abs (x.mean.get o) < r.stdMeanFloor → x.stdError.get o ≤ r.stdLimit) ∧
  (¬Scalar.abs (x.mean.get o) < r.stdMeanFloor →
    x.stdError.get o / Scalar.abs (x.mean.get o) ≤ r.stdLimit)

theorem Contender.observations_result (antithetic : Bool) (d : Contender α) :
    (d.result antithetic).observations antithetic = d.moments.count := by
  cases antithetic <;> simp [CandidateResult.observations, result, trials]

theorem Contender.settled_result {r : StoppingRule α} {o : Component} {d : Contender α}
    (h : r.settled d.moments o = true) (antithetic : Bool) :
    (d.result antithetic).Settled r o := by
  rw [StoppingRule.settled] at h
  refine ⟨fun near => ?_, fun far => ?_⟩
  · exact of_decide_eq_true ((if_pos near).symm.trans h)
  · exact of_decide_eq_true ((if_neg far).symm.trans h)

/-- Who is live after the last check is not eliminated. -/
theorem mem_seats_iff_eliminated {field : List (Contender α)} {antithetic : Bool} {j : Nat}
    {y : CandidateResult α} (hy : (field.map (·.result antithetic))[j]? = some y) :
    j ∈ seats field ↔ y.eliminated = false := by
  rw [List.getElem?_map] at hy
  obtain ⟨d, hd, rfl⟩ := Option.map_eq_some_iff.1 hy
  simp [mem_seats, hd, Contender.result]

/-- **A run that stops for want of other candidates** had some, and its only survivor is outranked by
nobody with results. -/
theorem exists_survivor [Scalar.LawfulRank α] (pos : 0 < candidates)
    (ok : ((run c crew candidates).run s).1.ending = .ok result)
    (alone : result.status = .stoppedEarly .singleCandidate) :
    2 ≤ candidates ∧ ∃ (i : Nat) (x : CandidateResult α), result.candidates[i]? = some x ∧
      (∀ (j : Nat) (y : CandidateResult α), result.candidates[j]? = some y →
        (y.eliminated = false ↔ j = i)) ∧
      ∀ y ∈ result.candidates, 0 < y.observations c.antithetic →
        Scalar.rankLE (y.mean.get c.key) (x.mean.get c.key) = true := by
  obtain ⟨before, check, length_eq, reason, shown⟩ := results_of_stoppedEarly ok alone
  obtain ⟨on, others, one⟩ := StoppingRule.countP_live_of_check reason
  obtain ⟨place, seat⟩ := (check.sound pos).seated
  obtain ⟨survivor, at_place, live⟩ := mem_seats.1 seat
  refine ⟨length_eq ▸ others, place, survivor.result c.antithetic, ?_, ?_, ?_⟩
  · rw [shown, List.getElem?_map, at_place]
    rfl
  · intro j y hy
    rw [shown] at hy
    rw [← mem_seats_iff_eliminated hy]
    refine ⟨fun stays => eq_of_mem_seats one stays seat, ?_⟩
    rintro rfl
    exact seat
  · intro y hy results
    rw [shown] at hy
    obtain ⟨d, hd, rfl⟩ := List.mem_map.1 hy
    rw [Contender.observations_result] at results
    exact (check.sound pos).rankLE_of_alone on at_place (fun i hi => eq_of_mem_seats one hi seat)
      hd results

/-- **In a run that stops for its standard errors** every survivor has been observed often enough and
is settled. -/
theorem settled_of_stdLimit (ok : ((run c crew candidates).run s).1.ending = .ok result)
    (settled : result.status = .stoppedEarly .stdLimit) {x : CandidateResult α}
    (hx : x ∈ result.candidates) (stays : x.eliminated = false) :
    c.stopping.minGamesStd ≤ x.observations c.antithetic ∧
      x.Settled c.stopping .cubelessEquity ∧ x.Settled c.stopping c.key := by
  obtain ⟨before, -, -, reason, shown⟩ := results_of_stoppedEarly ok settled
  rw [shown] at hx
  obtain ⟨d, hd, rfl⟩ := List.mem_map.1 hx
  have live : d.live = true := by simpa [Contender.result] using stays
  have all := List.all_eq_true.1 (StoppingRule.allSettled_of_check reason) d
    (List.mem_filter.2 ⟨hd, live⟩)
  simp only [Bool.and_eq_true, decide_eq_true_iff] at all
  obtain ⟨⟨enough, cubeless⟩, by_key⟩ := all
  rw [Contender.observations_result]
  exact ⟨enough, Contender.settled_result cubeless _, Contender.settled_result by_key _⟩

/-- **The final status of a run is justified, and the leader survives.**  Every check is sound.  A run
that stops for want of other candidates had some, and has one that is not eliminated and that nobody
with results outranks.  In one that stops for its standard errors every candidate that is not
eliminated has been observed often enough and is settled.  No run takes more batches than its trials
need. -/
theorem status_justified [Scalar.LawfulRank α] (pos : 0 < candidates)
    (ok : ((run c crew candidates).run s).1.ending = .ok result) :
    (∀ before after, Check c crew candidates s before after →
      CheckSound c.stopping c.key before after) ∧
    (result.status = .stoppedEarly .singleCandidate →
      2 ≤ candidates ∧ ∃ (i : Nat) (x : CandidateResult α), result.candidates[i]? = some x ∧
        (∀ (j : Nat) (y : CandidateResult α), result.candidates[j]? = some y →
          (y.eliminated = false ↔ j = i)) ∧
        ∀ y ∈ result.candidates, 0 < y.observations c.antithetic →
          Scalar.rankLE (y.mean.get c.key) (x.mean.get c.key) = true) ∧
    (result.status = .stoppedEarly .stdLimit → ∀ x ∈ result.candidates, x.eliminated = false →
      c.stopping.minGamesStd ≤ x.observations c.antithetic ∧
      x.Settled c.stopping .cubelessEquity ∧ x.Settled c.stopping c.key) ∧
    (handedOut c crew candidates s).length ≤ c.trials ⌈/⌉ c.batchSize := by
  refine ⟨fun _ _ check => check.sound pos, exists_survivor pos ok,
    fun settled _ hx stays => settled_of_stdLimit ok settled hx stays, ?_⟩
  rw [Nat.ceilDiv_eq_add_pred_div]
  exact length_handedOut_le c crew candidates s

/-- Four trials in batches of two, with contenders dropped from the second game on. -/
def quickDrops : Settings Float :=
  { Settings.standard with
    trials := 4
    batchSize := 2
    stopping := { StoppingRule.standard with stopOnJsd := true, jsdLimit := 2, minGamesJsd := 2 } }

/-- The first of two candidates always comes out ahead. -/
def firstAhead (t : Task) : Equities Float := .splat (if t.candidate = 0 then 0.5 else 0.25)

/-- A run that is down to one candidate after its first batch. -/
theorem quickDrops_status_justified :
    ∃ result : Result Float,
      ((run quickDrops (.finishing firstAhead) 2).run ()).1.ending = .ok result ∧
      result.status = .stoppedEarly .singleCandidate ∧
      ∃ (i : Nat) (x : CandidateResult Float), result.candidates[i]? = some x ∧
        ∀ y ∈ result.candidates, 0 < y.observations false →
          Scalar.rankLE (y.mean.get .cubefulEquity) (x.mean.get .cubefulEquity) = true := by
  have ends : Ends quickDrops (.finishing firstAhead) (.first quickDrops 2 ()) _ _ :=
    ends_next (by decide) (by decide +kernel : _ = some .singleCandidate)
  have run_eq := Reaches.run_eq (by decide +kernel) .refl ends
  have ok := congrArg (fun r => r.1.ending) run_eq
  obtain ⟨-, alone, -, -⟩ := status_justified (by decide : 0 < 2) ok
  obtain ⟨-, i, x, hx, -, first⟩ := alone rfl
  exact ⟨_, ok, rfl, i, x, hx, first⟩

end Backgammon.Rollout
