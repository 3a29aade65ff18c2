import Backgammon.Proofs.Rollout.Accounting
import Backgammon.Proofs.Rollout.Completion

/-!
# Proofs/Rollout/Elimination — who comes back once dropped

With reactivation switched off a dropped contender should stay dropped.  It does, with one exception:
a check makes the leader live, and the leader is taken from all contenders with results.  When the
others fall behind a dropped contender, it comes back without being asked for.

    dropped ──▸ dropped ──▸ ⋯ ──▸ leads ──▸ live        or        dropped ──▸ ⋯ ──▸ eliminated

* `StoppingRule.mem_seats_check` — who is live after a check was live before it or is the leader.
* `StoppingRule.leader_mem_seats_check` — the leader always is.
* `Stage.Leads` — a contender leads at the check that follows a stage.
* `Reaches.mem_seats` — who is live at a later stage was live all along or has led at a check between.
* `eliminated_or_leads` — so a dropped candidate leads at a later check, or gets no more trials and ends
  as eliminated.
* `lead_revives` — a run in which the first of the two happens.
-/

namespace Backgammon.Rollout

open Relation

variable {σ α : Type} [Scalar α]

/-! ## One check -/

namespace StoppingRule

variable {r : StoppingRule α} {key : Component} {field : List (Contender α)} {i : Nat}

/-- A choice between two, made all along a list, ends with an element of it. -/
theorem foldl_mem_cons {β : Type} {f : β → β → β} (h : ∀ x y, f x y = x ∨ f x y = y) (first : β)
    (rest : List β) : rest.foldl f first ∈ first :: rest := by
  induction rest generalizing first with
  | nil => exact List.mem_singleton_self first
  | cons next rest ih =>
    have mem := ih (f first next)
    rw [List.foldl_cons]
    rcases h first next with chosen | chosen <;> rw [chosen] at mem ⊢
    · exact List.cons_subset_cons first (List.subset_cons_self next rest) mem
    · exact List.mem_cons_of_mem first mem

/-- The leader is a contender. -/
theorem exists_of_leader? (h : leader? key field = some i) : ∃ c, field[i]? = some c := by
  simp only [leader?] at h
  split at h
  · exact nomatch h
  next first rest played =>
    have mem := foldl_mem_cons (f := fun x y : Contender α × Nat =>
      if Scalar.rankLE (x.1.moments.mean.get key) (y.1.moments.mean.get key) then y else x)
      (fun x y => (ite_eq_or_eq _ y x).symm) first rest
    rw [← played] at mem
    obtain rfl := Option.some.inj h
    exact ⟨_, List.mem_zipIdx_iff_getElem?.1 (List.mem_filter.1 mem).1⟩

variable [RealFunctions α]

/-- Who is kept was live, if nobody is reactivated. -/
theorem live_of_keeps (off : r.jsdReactivate = false) {leader c : Contender α}
    (h : r.keeps key leader c = true) : c.live = true := by
  rw [keeps] at h
  split at h
  · exact h
  · split at h
    · exact nomatch h
    · simpa [off] using h

/-- **Who is live after a check** was live before it or is the leader, if nobody is reactivated. -/
theorem mem_seats_check (off : r.jsdReactivate = false) (h : i ∈ seats (r.check key field).1) :
    i ∈ seats field ∨ leader? key field = some i := by
  rw [fst_check, eliminate] at h
  split at h
  · cases leads : leader? key field with
    | none =>
      rw [leads] at h
      exact .inl h
    | some best =>
      rw [leads] at h
      obtain ⟨c, hc, live⟩ := mem_seats.1 h
      rw [List.getElem?_map, List.getElem?_zipIdx, Option.map_map] at hc
      obtain ⟨d, hd, rfl⟩ := Option.map_eq_some_iff.1 hc
      by_cases first : i = best
      · exact .inr (congrArg some first.symm)
      · have kept : r.keeps key (field.getD best default) d = true := by simpa [first] using live
        exact .inl (mem_seats.2 ⟨d, hd, live_of_keeps off kept⟩)
  · exact .inl h

/-- **The leader is live after a check**, dropped or not. -/
theorem leader_mem_seats_check (on : r.stopOnJsd = true) (h : leader? key field = some i) :
    i ∈ seats (r.check key field).1 := by
  obtain ⟨c, hc⟩ := exists_of_leader? h
  refine mem_seats.2 ⟨{ c with live := true }, ?_, rfl⟩
  rw [fst_check, if_pos on, eliminate, h]
  simp [hc]

end StoppingRule

/-! ## The whole run -/

theorem Contender.live_absorbEach (antithetic : Bool) (c : Contender α)
    (results : List (Nat × Equities α)) : (c.absorbEach antithetic results).live = c.live := by
  induction results generalizing c with
  | nil => rfl
  | cons x results ih => exact (ih _).trans (Contender.live_absorb ..)

/-- Taking results in leaves the seats as they are. -/
theorem mem_seats_absorbAll {antithetic : Bool} {field : List (Contender α)}
    {reports : List (Report α)} {i : Nat} :
    i ∈ seats (absorbAll antithetic field reports) ↔ i ∈ seats field := by
  simp only [mem_seats, getElem?_absorbAll, Option.map_eq_some_iff]
  constructor
  · rintro ⟨_, ⟨c, hc, rfl⟩, live⟩
    exact ⟨c, hc, (c.live_absorbEach ..).symm.trans live⟩
  · rintro ⟨c, hc, live⟩
    exact ⟨_, ⟨c, hc, rfl⟩, (c.live_absorbEach ..).trans live⟩

variable {c : Settings α} {crew : Crew (StateM σ) α} {x y : Stage σ α} {i candidates : Nat}

/-- **A contender leads** at the check after the batch that is played at a stage. -/
def Stage.Leads (c : Settings α) (crew : Crew (StateM σ) α) (x : Stage σ α) (i : Nat) : Prop :=
  ∃ reports s, Plays c crew x reports s ∧
    StoppingRule.leader? c.key (x.absorbed c reports).field = some i

variable [RealFunctions α]

theorem Plays.mem_seats {reports : List (Report α)} {s : σ} (off : c.stopping.jsdReactivate = false)
    (played : Plays c crew x reports s) (h : i ∈ seats (x.checked c reports).field) :
    i ∈ seats x.state.field ∨ x.Leads c crew i :=
  (StoppingRule.mem_seats_check off h).imp mem_seats_absorbAll.1 fun leads =>
    ⟨reports, s, played, leads⟩

theorem Advance.mem_seats (off : c.stopping.jsdReactivate = false) (step : Advance c crew x y)
    (h : i ∈ seats y.state.field) : i ∈ seats x.state.field ∨ x.Leads c crew i := by
  obtain ⟨played, -, -, -, -⟩ := step
  rw [RunState.field_shown] at h
  exact played.mem_seats off h

/-- **Who is live at a later stage** was live all along or has led at a check between. -/
theorem Reaches.mem_seats (off : c.stopping.jsdReactivate = false) (reach : Reaches c crew x y)
    (h : i ∈ seats y.state.field) :
    i ∈ seats x.state.field ∨ ∃ z, Reaches c crew x z ∧ z.Leads c crew i := by
  induction reach with
  | refl => exact .inl h
  | tail reach step ih =>
    rcases step.mem_seats off h with live | leads
    · exact ih live
    · exact .inr ⟨_, reach, leads⟩

/-- Who is not live in the last field of a run ends as eliminated. -/
theorem eliminated_of_close {state : RunState α} {status : Status} {r : Run α} {result : Result α}
    (h : r = state.close c status) (ok : r.ending = .ok result) (dropped : i ∉ seats state.field)
    {d : CandidateResult α} (hd : result.candidates[i]? = some d) : d.eliminated = true := by
  obtain rfl : result = _ := Except.ok.inj (ok.symm.trans (congrArg Run.ending h))
  rw [List.getElem?_map] at hd
  obtain ⟨contender, hc, rfl⟩ := Option.map_eq_some_iff.1 hd
  have not_live : ¬contender.live = true := fun live => dropped (mem_seats.2 ⟨contender, hc, live⟩)
  simpa [Contender.result] using not_live

/-- **A dropped candidate ends as eliminated** where the run ends, unless it leads there. -/
theorem Ends.eliminated {r : Run α} {s : σ} (ends : Ends c crew x r s)
    (off : c.stopping.jsdReactivate = false) (dropped : i ∉ seats x.state.field)
    (trails : ¬x.Leads c crew i) {result : Result α} (ok : r.ending = .ok result)
    {d : CandidateResult α} (hd : result.candidates[i]? = some d) : d.eliminated = true := by
  cases ends with
  | cancelled ask fin | completed none_left ask fin =>
    exact eliminated_of_close (eq_close_of_finish fin) ok dropped hd
  | failed played failed => exact nomatch ok
  | interrupted played sound cut fin =>
    exact eliminated_of_close (eq_close_of_finish fin) ok (mt mem_seats_absorbAll.1 dropped) hd
  | stopped played sound whole stop clock fin =>
    refine eliminated_of_close (eq_close_of_finish fin) ok (fun live => ?_) hd
    rw [RunState.field_shown] at live
    exact (played.mem_seats off live).elim dropped trails

/-- **Elimination is final for whoever does not lead again.**  With reactivation off a candidate that is
dropped at some stage leads at a later check, or it gets no trial from there on and ends as
eliminated. -/
theorem eliminated_or_leads (off : c.stopping.jsdReactivate = false) {s : σ}
    (reach : Reaches c crew (.first c candidates s) x) (dropped : i ∉ seats x.state.field) :
    (∃ y, Reaches c crew x y ∧ y.Leads c crew i) ∨
      ((∀ y, Reaches c crew x y → ∀ t ∈ y.tasks c, t.candidate ≠ i) ∧
        ∀ result, ((run c crew candidates).run s).1.ending = .ok result →
          ∀ d, result.candidates[i]? = some d → d.eliminated = true) := by
  by_cases leads : ∃ y, Reaches c crew x y ∧ y.Leads c crew i
  · exact .inl leads
  -- as long as it leads nowhere it is live nowhere
  have stays {y : Stage σ α} (later : Reaches c crew x y) : i ∉ seats y.state.field := fun live =>
    (later.mem_seats off live).elim dropped leads
  refine .inr ⟨fun y later t ht own => ?_, fun result ok d hd => ?_⟩
  · exact stays later (own ▸ (mem_tasks.1 ht).2)
  · obtain ⟨last, r, s', later, ends⟩ := exists_reaches_ends c crew x
    rw [Reaches.run_eq (validate_of_ending ok) (reach.trans later) ends] at ok
    exact ends.eliminated off (stays later) (fun h => leads ⟨last, later, h⟩) ok hd

/-! ## Trials that all come to their end -/

section

variable (c : Settings α) (value : Task → Equities α) (x : Stage Unit α)

/-- A crew that plays every trial to its end. -/
def Crew.finishing (value : Task → Equities α) : Crew (StateM Unit) α :=
  .inOrder fun t => .ok (some (value t))

/-- The contenders once a batch of finished trials is taken in: each in the order of its trials. -/
def Stage.fedBatch : List (Contender α) :=
  x.state.field.zipIdx.map fun (d, i) => d.absorbEach c.antithetic
    (credits (credited (fun t => .ok (some (value t))) (x.tasks c) i) (c.batchTrials (x.batch c)))

/-- The stage after such a batch. -/
def Stage.next : Stage Unit α where
  left := x.left - 1
  state :=
    { x.state with field := (c.stopping.check c.key (x.fedBatch c value)).1 }.shown c (x.batch c)
  world := ()

variable {c value x}

omit [RealFunctions α] in
/-- **A batch of finished trials** is played, with nothing amiss. -/
theorem exists_plays_finishing (c : Settings α) (value : Task → Equities α) {x : Stage Unit α}
    (pos : 0 < x.left) : ∃ reports, Plays c (.finishing value) x reports () ∧
      failure? reports = none ∧ anyInterrupted reports = false ∧
      (x.absorbed c reports).field = x.fedBatch c value := by
  let reports : List (Report α) := (x.tasks c).map fun t => ⟨t, 0, .ok (some (value t))⟩
  have delivered : Delivers 1 (fun t => .ok (some (value t))) (x.tasks c) reports :=
    .inOrder Nat.one_pos _ _
  have ordered : (c.batchTrials (x.batch c)).Pairwise (· < ·) := List.pairwise_lt_range'
  refine ⟨reports, ⟨pos, (), rfl, rfl⟩, by simp [failure?, reports],
    by simp [anyInterrupted, reports], ?_⟩
  exact List.map_congr_left fun d _ => congrArg (Contender.absorbEach c.antithetic d.1)
    (resultsOf_eq delivered ordered d.2)

/-- Such a batch leads to the next stage if no rule stops the run… -/
theorem advance_next (pos : 0 < x.left)
    (goOn : (c.stopping.check c.key (x.fedBatch c value)).2 = none) :
    Advance c (.finishing value) x (x.next c value) := by
  obtain ⟨reports, played, sound, whole, field_eq⟩ := exists_plays_finishing c value pos
  have next_eq : x.next c value = ⟨x.left - 1, (x.checked c reports).shown c (x.batch c), ()⟩ := by
    rw [Stage.checked, field_eq]
    rfl
  have unstopped : x.stopReason? c reports = none := by rw [Stage.stopReason?, field_eq, goOn]
  rw [next_eq]
  exact .mk played sound whole unstopped rfl

/-- …and otherwise ends it there. -/
theorem ends_next {reason : StopReason} (pos : 0 < x.left)
    (stop : (c.stopping.check c.key (x.fedBatch c value)).2 = some reason) :
    Ends c (.finishing value) x ((x.next c value).state.close c (.stoppedEarly reason)) () := by
  obtain ⟨reports, played, sound, whole, field_eq⟩ := exists_plays_finishing c value pos
  have next_eq : (x.next c value).state = (x.checked c reports).shown c (x.batch c) := by
    rw [Stage.checked, field_eq]
    rfl
  have stopped : x.stopReason? c reports = some reason := by rw [Stage.stopReason?, field_eq, stop]
  rw [next_eq]
  exact .stopped played sound whole stopped rfl (finish_run ..)

end

/-! ### A dropped candidate that comes back -/

/-- Six trials in batches of two, without reactivation. -/
def sticky : Settings Float :=
  { Settings.standard with
    trials := 6
    batchSize := 2
    stopping := { StoppingRule.standard with
      stopOnJsd := true, jsdLimit := 2, minGamesJsd := 2, jsdReactivate := false } }

/-- Two candidates win nothing after their first two trials, and a third is the same in all of them. -/
def collapse (t : Task) : Equities Float :=
  .splat (if t.candidate = 2 then 0.25 else if t.trial = 0 then 0.4375 else if t.trial = 1 then 0.5
    else 0)

def collapsing : Crew (StateM Unit) Float := .finishing collapse

/-- The third candidate is dropped after the first batch… -/
def afterDrop : Stage Unit Float := (Stage.first sticky 3 ()).next sticky collapse

/-- …and comes back after the second. -/
def afterReturn : Stage Unit Float := afterDrop.next sticky collapse

theorem advance_afterDrop : Advance sticky collapsing (.first sticky 3 ()) afterDrop :=
  advance_next (by decide) (by decide +kernel)

theorem sticky_eliminated_or_leads :
    2 ∉ seats afterDrop.state.field ∧
    ((∃ y, Reaches sticky collapsing afterDrop y ∧ y.Leads sticky collapsing 2) ∨
      ((∀ y, Reaches sticky collapsing afterDrop y → ∀ t ∈ y.tasks sticky, t.candidate ≠ 2) ∧
        ∀ result, ((run sticky collapsing 3).run ()).1.ending = .ok result →
          ∀ d, result.candidates[2]? = some d → d.eliminated = true)) :=
  have out : 2 ∉ seats afterDrop.state.field := by decide +kernel
  ⟨out, eliminated_or_leads rfl (.single advance_afterDrop) out⟩

/-- **A dropped candidate comes back** although reactivation is off: the other two fall behind it, it is
given trials again and does not end as eliminated. -/
theorem lead_revives :
    sticky.stopping.jsdReactivate = false ∧
    Advance sticky collapsing (.first sticky 3 ()) afterDrop ∧
    2 ∉ seats afterDrop.state.field ∧
    Advance sticky collapsing afterDrop afterReturn ∧
    2 ∈ seats afterReturn.state.field ∧ ⟨2, 4⟩ ∈ afterReturn.tasks sticky ∧
    ((run sticky collapsing 3).run ()).1.ending.toOption.map
      (·.candidates.map (·.eliminated)) = some [false, false, false] := by
  have advance_afterReturn : Advance sticky collapsing afterDrop afterReturn :=
    advance_next (by decide +kernel) (by decide +kernel)
  have advance_last : Advance sticky collapsing afterReturn (afterReturn.next sticky collapse) :=
    advance_next (by decide +kernel) (by decide +kernel)
  have ends : Ends sticky collapsing (afterReturn.next sticky collapse) _ _ :=
    .completed (by decide +kernel) rfl (finish_run ..)
  have reach : Reaches sticky collapsing (.first sticky 3 ()) (afterReturn.next sticky collapse) :=
    ((ReflTransGen.single advance_afterDrop).tail advance_afterReturn).tail advance_last
  refine ⟨rfl, advance_afterDrop, by decide +kernel, advance_afterReturn, by decide +kernel,
    by decide +kernel, ?_⟩
  rw [reach.run_eq (by decide +kernel) ends]
  decide +kernel

end Backgammon.Rollout
