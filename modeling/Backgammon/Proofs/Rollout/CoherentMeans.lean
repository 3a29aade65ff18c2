import Backgammon.Proofs.Coherence
import Backgammon.Proofs.Exact
import Backgammon.Proofs.Rollout.Accounting
import Backgammon.Proofs.Rollout.CubeTurns
import Backgammon.Proofs.Rollout.Trace
import Backgammon.Proofs.Rollout.VarianceReduction

/-!
# Proofs/Rollout/CoherentMeans — the means of a run make sense

    answers ──▸ result of a trial ──▸ pair ──▸ mean
                       └─ luck off

Chances and equities of a reported mean should belong together as they do in the vectors that the
evaluator returns.  Whatever has that property and is stable passes from the answers to the results of
trials, and from these to the means, through pairing, batches that are cut short, and checks that drop
contenders.  Taking the luck off keeps a vector coherent, since luck is a difference of coherent vectors;
that chances stay chances it does not promise.

* `Arena.AnswersWith` — all answers of the evaluator are consistent and have a property.
* `AnswersWith.gap_rollLuck`, `AnswersWith.gap_luck` — luck is a difference of coherent vectors.
* `AnswersWith.resultsHave`, `AnswersWith.resultsHave_coherent` — the results of trials have the property.
* `Contender.Holds`, `Settings.contendersAfter_holds` — so have the means, batch after batch.
* `means_make_sense` — and the means that a run reports.
-/

namespace Backgammon.Rollout

open Equities

variable {σ τ δ Board Move : Type} {P : Equities Rat → Prop}

/-! ## What a trial is made of -/

theorem toStart_of_stable (stable : Stable P) {v : Equities Rat} (hv : P v) (s : Stakes)
    (flipped : Bool) (startCube : Nat) : P (toStart v s flipped startCube) := by
  have rescaled : P (if s.isMoney then v.withCubeful (v.cubeful * (s.cube : Rat) / (startCube : Rat))
      else v) := by
    split
    · exact stable.withCubeful _ _ hv
    · exact hv
  rw [toStart]
  cases flipped with
  | false => exact rescaled
  | true => exact stable.invert _ _ rescaled

/-- **The evaluator answers sensibly**: whatever it returns is consistent and has the property. -/
def Arena.AnswersWith (P : Equities Rat → Prop) (a : Arena (StateM τ) δ Rat Board Move) : Prop :=
  ∀ board s c w v w', Yields (a.evaluator board s c) w v w' → v.isConsistent = true ∧ P v

namespace Arena.AnswersWith

variable {a : Arena (StateM τ) δ Rat Board Move} {t : Trial δ Rat Board} {v : Equities Rat}
  {w w' : τ} {e : TrialEnd} (h : a.AnswersWith P)
include h

/-- Consistent answers are passed on as they are. -/
theorem of_evaluate {board : Board} {s : Stakes} {c : EvalSettings Rat}
    (answer : Yields (a.evaluate board s c) w v w') : P v := by
  obtain ⟨u, w₁, answer, repaired⟩ := Yields.bind_iff.1 answer
  obtain ⟨consistent, hu⟩ := h _ _ _ _ _ _ (Yields.adapt_iff.1 answer)
  obtain ⟨rfl, -⟩ := Yields.pure_iff.1 repaired
  rwa [repaired_of_isConsistent consistent]

variable (stable : Stable P)
include stable

/-- A double that is passed leaves an answer with another cubeful equity. -/
theorem of_passed (offer : Yields (a.cubeTurn t) w (.passed v) w') : P v := by
  rw [Arena.cubeTurn, if_pos (Arena.mayDouble_of_cubeTurn offer (by simp)), Arena.cubeAction] at offer
  obtain ⟨noDouble, _, answer, offer⟩ := Yields.bind_iff.1 offer
  obtain ⟨doubled, _, -, offer⟩ := Yields.bind_iff.1 offer
  dsimp only at offer
  generalize (Analysis.verdict _ _ _ : Analysis.CubeVerdict Rat).decision = decision at offer
  cases decision <;> cases (Yields.pure_iff.1 offer).1 <;>
    exact stable.withCubeful _ _ (h.of_evaluate answer)

/-- **The vector at the end of a trial** has the property, as the player who began sees it. -/
theorem exists_of_endsBy (ends : a.EndsBy t w e v w') :
    ∃ u, P u ∧ v = zipWith (· - ·) u t.luck := by
  have seen {u : Equities Rat} (hu : P u) : ∃ u', P u' ∧ t.result u = zipWith (· - ·) u' t.luck :=
    ⟨_, toStart_of_stable stable hu _ _ _, rfl⟩
  cases ends with
  | finished ended => exact seen (stable.ofOutcome _ _)
  | cut running cut estimate => exact seen (h.of_evaluate estimate)
  | passed running uncut uninterrupted offer => exact seen (h.of_passed stable offer)

/-- What a roll is worth has the property. -/
theorem of_rollValue {roll : Dice} (value : Yields (a.rollValue t roll) w v w') : P v := by
  obtain ⟨next, w₁, -, value⟩ := Yields.bind_iff.1 value
  dsimp only at value
  cases ended : a.game.outcome? next with
  | some o =>
    simp only [ended, pure_bind] at value
    obtain ⟨rfl, -⟩ := Yields.pure_iff.1 value
    exact toStart_of_stable stable (stable.ofOutcome _ _) _ _ _
  | none =>
    simp only [ended] at value
    obtain ⟨u, w₂, answer, value⟩ := Yields.bind_iff.1 value
    obtain ⟨rfl, -⟩ := Yields.pure_iff.1 value
    exact toStart_of_stable stable (h.of_evaluate answer) _ _ _

end Arena.AnswersWith

/-! ## Luck -/

/-- Values of rolls, weighed and added up. -/
theorem gap_foldl_weighted {values : List (Dice × Equities Rat)} (hv : ∀ x ∈ values, x.2.gap = 1)
    (sum : Equities Rat) :
    (values.foldl (fun sum x => zipWith (fun t e => t + e * (x.1.weight : Rat)) sum x.2) sum).gap =
      sum.gap + (Dice.totalWeight (values.map Prod.fst) : Rat) := by
  rw [Dice.cast_totalWeight, List.map_map]
  induction values generalizing sum with
  | nil => exact (add_zero _).symm
  | cons x values ih =>
    obtain ⟨hx, hvalues⟩ := List.forall_mem_cons.1 hv
    rw [List.foldl_cons, ih hvalues, gap_add_mul, hx, one_mul, List.map_cons, List.sum_cons,
      add_assoc]
    rfl

namespace Arena.AnswersWith

variable {a : Arena (StateM τ) δ Rat Board Move} {t t' : Trial δ Rat Board} {v : Equities Rat}
  {w w' : τ} (h : a.AnswersWith Coherent)
include h

/-- **The luck of a roll is a difference of coherent vectors**: the value of the roll, less the mean of
such values. -/
theorem gap_rollLuck {roll : Dice} (luck : Yields (a.rollLuck t roll) w v w') : v.gap = 0 := by
  obtain ⟨values, w₁, valued, luck⟩ := Yields.bind_iff.1 luck
  obtain ⟨rfl, -⟩ := Yields.pure_iff.1 luck
  have each : ∀ d w x w', Yields (do return (d, ← a.rollValue t d)) w x w' →
      x.1 = d ∧ x.2.gap = 1 := by
    intro d w x w' value
    obtain ⟨v, w₁, valued, same⟩ := Yields.bind_iff.1 value
    obtain ⟨rfl, -⟩ := Yields.pure_iff.1 same
    exact ⟨rfl, coherent_iff.1 (h.of_rollValue stable_coherent valued)⟩
  obtain ⟨rolls, coherent⟩ := Yields.forall_of_mapM each valued
  have weights : (Dice.totalWeight (a.possibleRolls t.ply) : Rat) ≠ 0 :=
    Nat.cast_ne_zero.2 (a.totalWeight_possibleRolls_ne_zero t.ply)
  split
  next d v found =>
    have mean := gap_foldl_weighted coherent .zero
    rw [gap_zero, zero_add] at mean
    rw [gap_sub, coherent _ (List.mem_of_find?_eq_some found), gap_map_div]
    refine sub_eq_zero.2 (((div_eq_one_iff_eq ?_).2 mean).symm)
    rw [rolls]
    exact weights
  next => exact gap_zero

/-- A roll adds its luck, or none. -/
theorem gap_luck_of_rollAndPlay (played : Yields (a.rollAndPlay t) w t' w') (ht : t.luck.gap = 0) :
    t'.luck.gap = 0 := by
  cases noted : a.settings.varianceReduction with
  | true =>
    rw [Arena.rollAndPlay] at played
    simp only [noted, if_true] at played
    obtain ⟨⟨roll, dice⟩, w₁, -, played⟩ := Yields.bind_iff.1 played
    obtain ⟨luck, w₂, added, played⟩ := Yields.bind_iff.1 played
    obtain ⟨board, w₃, -, played⟩ := Yields.bind_iff.1 played
    obtain ⟨rfl, -⟩ := Yields.pure_iff.1 played
    obtain ⟨gain, gained, rfl⟩ := Yields.map_iff.1 added
    rw [gap_add, ht, h.gap_rollLuck gained, add_zero]
  | false =>
    obtain ⟨board, luck, dice, rfl, -, unchanged⟩ := Arena.exists_eq_of_rollAndPlay played
    rwa [unchanged noted]

/-- **The luck so far is a difference of coherent vectors**, all along a trial. -/
theorem gap_luck {t₀ : Trial δ Rat Board} {w₀ : τ} {doubles : List Stakes}
    (course : a.Course t₀ w₀ doubles t w) (start : t₀.luck.gap = 0) : t.luck.gap = 0 := by
  induction course with
  | start => exact start
  | next before turn ih =>
    obtain ⟨-, -, -, w₂, -, -, played⟩ := turn
    exact h.gap_luck_of_rollAndPlay played ih

end Arena.AnswersWith

/-! ## Trials -/

/-- **All results of trials have a property.** -/
def Arena.ResultsHave (P : Equities Rat → Prop) (a : Arena (StateM τ) δ Rat Board Move) : Prop :=
  ∀ horizon board stakes dice w v w', Yields (a.play horizon board stakes dice) w (some v) w' → P v

namespace Arena.AnswersWith

variable {a : Arena (StateM τ) δ Rat Board Move}

/-- **With no luck taken off**, the results of trials have the property of the answers. -/
theorem resultsHave (h : a.AnswersWith P) (stable : Stable P)
    (plain : a.settings.varianceReduction = false) : a.ResultsHave P := by
  intro horizon board stakes dice w v w' played
  obtain ⟨doubles, t, w₁, e, -, course, ends⟩ := Arena.yields_play_iff.1 played
  obtain ⟨u, hu, rfl⟩ := h.exists_of_endsBy stable ends
  have nothing_off : zipWith (· - ·) u t.luck = u := by
    ext k
    rw [course.atHead.luck_eq plain, get_zipWith, zero, get_splat]
    exact sub_zero _
  rwa [nothing_off]

/-- **Coherent answers lead to coherent results**, whether or not the luck is taken off. -/
theorem resultsHave_coherent (h : a.AnswersWith Coherent) : a.ResultsHave Coherent := by
  intro horizon board stakes dice w v w' played
  obtain ⟨doubles, t, w₁, e, -, course, ends⟩ := Arena.yields_play_iff.1 played
  obtain ⟨u, hu, rfl⟩ := h.exists_of_endsBy stable_coherent ends
  exact hu.sub (h.gap_luck course gap_zero)

end Arena.AnswersWith

/-! ## Contenders -/

namespace Contender

variable {c : Contender Rat}

/-- **A contender holds what has the property**: its mean, and the half of a pair that waits. -/
structure Holds (P : Equities Rat → Prop) (c : Contender Rat) : Prop where
  moments : c.moments.Holds P
  unpaired : ∀ x ∈ c.unpaired, P x.2

theorem holds_fresh : (fresh : Contender Rat).Holds P where
  moments := Moments.holds_empty
  unpaired := nofun

/-- Whether a contender is live does not matter. -/
theorem holds_revived_iff : c.revived.Holds P ↔ c.Holds P :=
  ⟨fun h => ⟨h.moments, h.unpaired⟩, fun h => ⟨h.moments, h.unpaired⟩⟩

/-- **One result more** that has the property. -/
theorem Holds.absorb (h : c.Holds P) (stable : Stable P) (antithetic : Bool) (trial : Nat)
    {v : Equities Rat} (hv : P v) : (c.absorb antithetic trial v).Holds P := by
  cases antithetic with
  | false => exact ⟨h.moments.push stable hv, h.unpaired⟩
  | true =>
    rcases Nat.mod_two_eq_zero_or_one trial with even | odd
    · rw [absorb_even even]
      exact ⟨h.moments, by simpa using hv⟩
    · by_cases partner : ∃ w, c.unpaired = some (trial - 1, w)
      · obtain ⟨w, waiting⟩ := partner
        have average : pairAverage w v = mix (1 / 2) w v := by
          ext k
          simp only [pairAverage, mix, get_zipWith]
          ring
        rw [absorb_partner odd waiting]
        refine ⟨h.moments.push stable ?_, by simp⟩
        rw [average]
        exact stable.mix _ _ _ (by norm_num) (by norm_num) (h.unpaired _ waiting) hv
      · have alone : ∀ x, c.unpaired = some x → x.1 + 1 ≠ trial := by
          rintro ⟨first, w⟩ waiting rfl
          exact partner ⟨w, waiting⟩
        rw [absorb_alone odd alone]
        exact ⟨h.moments, by simp⟩

theorem Holds.absorbEach (h : c.Holds P) (stable : Stable P) (antithetic : Bool)
    {results : List (Nat × Equities Rat)} (hr : ∀ x ∈ results, P x.2) :
    (c.absorbEach antithetic results).Holds P := by
  induction results generalizing c with
  | nil => exact h
  | cons x results ih =>
    obtain ⟨hx, hr⟩ := List.forall_mem_cons.1 hr
    exact ih (h.absorb stable antithetic x.1 hx) hr

end Contender

/-! ## Batches -/

/-- **The reports of a batch have the property** as far as they bring results. -/
def ReportsHave (P : Equities Rat → Prop) (reports : List (Report Rat)) : Prop :=
  ∀ p ∈ reports, ∀ v, p.outcome = .ok (some v) → P v

variable {reports : List (Report Rat)} {field : List (Contender Rat)}

theorem ReportsHave.of_mem_resultsOf (h : ReportsHave P reports) {i : Nat} :
    ∀ x ∈ resultsOf i reports, P x.2 := by
  intro x hx
  rw [resultsOf, List.mem_mergeSort, List.mem_filterMap] at hx
  obtain ⟨p, hp, own⟩ := hx
  rcases outcome : p.outcome with e | _ | v
  · simp [outcome] at own
  · simp [outcome] at own
  · simp only [outcome, Option.ite_none_right_eq_some, Option.some.injEq] at own
    obtain ⟨-, rfl⟩ := own
    exact h p hp v outcome

/-- The contenders that have taken a batch in. -/
theorem absorbAll_holds (stable : Stable P) (antithetic : Bool) (hf : ∀ c ∈ field, c.Holds P)
    (hr : ReportsHave P reports) : ∀ c ∈ absorbAll antithetic field reports, c.Holds P := by
  intro c hc
  obtain ⟨i, hi⟩ := List.mem_iff_getElem?.1 hc
  rw [getElem?_absorbAll] at hi
  obtain ⟨d, hd, rfl⟩ := Option.map_eq_some_iff.1 hi
  exact (hf d (List.mem_of_getElem? hd)).absorbEach stable antithetic hr.of_mem_resultsOf

section

variable [RealFunctions Rat]

/-- The contenders that a check has looked at. -/
theorem check_holds (r : StoppingRule Rat) (key : Component) (hf : ∀ c ∈ field, c.Holds P) :
    ∀ c ∈ (r.check key field).1, c.Holds P := by
  intro c hc
  have mem := List.mem_map_of_mem (f := Contender.revived) hc
  rw [StoppingRule.map_revived_check] at mem
  obtain ⟨d, hd, same⟩ := List.mem_map.1 mem
  rw [← Contender.holds_revived_iff, ← same, Contender.holds_revived_iff]
  exact hf d hd

/-- **The contenders after some batches**: every batch leaves them with what has the property. -/
theorem Settings.contendersAfter_holds (c : Settings Rat) (candidates : Nat) (stable : Stable P)
    {batches : List (List (Report Rat))} (hb : ∀ reports ∈ batches, ReportsHave P reports) :
    ∀ x ∈ c.contendersAfter candidates batches, x.Holds P := by
  induction batches using List.reverseRecOn with
  | nil =>
    intro x hx
    rw [List.eq_of_mem_replicate hx]
    exact Contender.holds_fresh
  | append_singleton batches reports ih =>
    obtain ⟨before, last⟩ := List.forall_mem_append.1 hb
    rw [contendersAfter_concat]
    exact check_holds _ _ (absorbAll_holds stable _ (ih before) (last reports (by simp)))

/-- The field of a run with a result. -/
theorem Closed.field_holds {c : Settings Rat} {candidates : Nat} {events : List (Event Rat)}
    {r : Run Rat} {batches : List (List (Report Rat))} {cut : Option (List (Report Rat))}
    {status : Status} {shots : List (Snapshot Rat)}
    (h : Closed c candidates events r batches cut field status shots) (stable : Stable P)
    (hb : ∀ reports ∈ played events, ReportsHave P reports) : ∀ x ∈ field, x.Holds P := by
  rw [h.played_eq] at hb
  obtain ⟨before, last⟩ := List.forall_mem_append.1 hb
  have settled := c.contendersAfter_holds candidates stable before
  rw [h.field_eq]
  cases cut with
  | none => exact settled
  | some reports => exact absorbAll_holds stable _ settled (last reports (by simp))

/-! ## The whole run -/

variable {a : Arena (StateM τ) δ Rat Board Move} {start : Nat → δ} {horizon workers : Nat}
  {pool : Array (Candidate Board)} {crew : Crew (StateM σ) Rat}

omit [RealFunctions Rat] in
/-- The reports of trials that are played in an arena. -/
theorem Arena.ResultsHave.reportsHave (h : a.ResultsHave P) {world : Task → τ} {tasks : List Task}
    (delivered : Delivers workers (a.outcomesIn start horizon pool world) tasks reports) :
    ReportsHave P reports := by
  intro p hp v outcome
  rw [delivered.outcome_eq hp, Arena.outcomesIn, Arena.perform] at outcome
  cases seated : pool[p.task.candidate]? with
  | none =>
    rw [seated] at outcome
    cases outcome
  | some x =>
    rw [seated] at outcome
    exact h _ _ _ _ _ _ _ (Prod.ext outcome rfl)

/-- **Means have the property** that all results of trials have. -/
theorem Arena.ResultsHave.mean (h : a.ResultsHave P) (stable : Stable P)
    (crew_plays : crew.PlayedAmong workers
      fun play => ∃ world, play = a.outcomesIn start horizon pool world) {s : σ} {result : Result Rat}
    (ok : ((run a.settings crew pool.size).run s).1.ending = .ok result) :
    ∀ x ∈ result.candidates, 0 < x.trials → P x.mean := by
  obtain ⟨batches, cut, field, status, shots, closed, rfl⟩ := closed_of_ending ok
  have reports_have : ∀ reports ∈ played (trace a.settings crew pool.size s),
      ReportsHave P reports := by
    intro reports mem
    obtain ⟨tasks, play, ⟨world, rfl⟩, delivered⟩ :=
      (Crew.PlayedAmong.inTurn crew_plays (validate_of_ending ok) pool.size s).exists_tasks reports mem
    exact h.reportsHave delivered
  intro x hx pos
  obtain ⟨c, hc, rfl⟩ := List.mem_map.1 hx
  have counted : 0 < c.moments.count := by
    replace pos : 0 < c.trials a.settings.antithetic := pos
    rw [Contender.trials] at pos
    split at pos <;> omega
  exact (closed.field_holds stable reports_have c hc).moments.mean counted

/-- **The means of a run make sense.**  When all answers of the evaluator are consistent and have the
cubeless equity that their chances have, then so has the mean of every candidate with trials behind it;
and with no luck taken off it is consistent. -/
theorem means_make_sense (a : Arena (StateM τ) δ Rat Board Move) (start : Nat → δ) (horizon : Nat)
    (pool : Array (Candidate Board))
    (answers : ∀ board s c w v w', Yields (a.evaluator board s c) w v w' →
      v.isConsistent = true ∧ v.cubeless = v.chancesEquity)
    (crew_plays : crew.PlayedAmong workers
      fun play => ∃ world, play = a.outcomesIn start horizon pool world) {s : σ} {result : Result Rat}
    (ok : ((run a.settings crew pool.size).run s).1.ending = .ok result) :
    ∀ x ∈ result.candidates, 0 < x.trials →
      x.mean.cubeless = x.mean.chancesEquity ∧
      (a.settings.varianceReduction = false → x.mean.isConsistent = true) := by
  intro x hx pos
  refine ⟨?_, fun plain => ?_⟩
  · have coherent : a.AnswersWith Coherent := answers
    exact coherent.resultsHave_coherent.mean stable_coherent crew_plays ok x hx pos
  · have consistent : a.AnswersWith fun v => v.isConsistent = true :=
      fun board s c w v w' answer =>
        ⟨(answers board s c w v w' answer).1, (answers board s c w v w' answer).1⟩
    exact (consistent.resultsHave stable_isConsistent plain).mean stable_isConsistent crew_plays ok x
      hx pos

end

open Exact in
/-- Two candidates in antithetic pairs: the one is taken off with the first roll, after a double, and the
other is cut short. -/
theorem pairedDoubles_make_sense :
    let a := { earlyDouble with
      settings := { earlyDouble.settings with trials := 4, batchSize := 1, antithetic := true } }
    let pool : Array (Candidate Nat) := #[⟨1, toNine⟩, ⟨5, toNine⟩]
    let crew := Crew.inOrder (a.outcomesIn id 4 pool fun _ => ())
    ∃ result, ((run a.settings crew 2).run ()).1.ending = .ok result ∧
      result.candidates.map (·.trials) = [4, 4] ∧
      ∀ x ∈ result.candidates, 0 < x.trials →
        x.mean.cubeless = x.mean.chancesEquity ∧ x.mean.isConsistent = true := by
  intro a pool crew
  have crew_plays : crew.PlayedAmong 4 fun play => ∃ world, play = a.outcomesIn id 4 pool world :=
    (Crew.playedBy_inOrder (by decide) _).among ⟨_, rfl⟩
  have answers : ∀ board s c w v w', Yields (a.evaluator board s c) w v w' →
      v.isConsistent = true ∧ v.cubeless = v.chancesEquity := by
    intro board s c w v w' answer
    obtain ⟨rfl, -⟩ := Yields.pure_iff.1 answer
    exact ⟨(by decide +kernel : (ofChances (3 / 5 : Rat) 0 0 0 0).isConsistent = true), rfl⟩
  have trials : (((run a.settings crew 2).run ()).1.ending.map fun result =>
      result.candidates.map (·.trials)).toOption = some [4, 4] := by decide +kernel
  cases ending : ((run a.settings crew 2).run ()).1.ending with
  | error e =>
    rw [ending] at trials
    cases trials
  | ok result =>
    rw [ending] at trials
    refine ⟨result, rfl, Option.some.inj trials, fun x hx pos => ?_⟩
    obtain ⟨coherent, consistent⟩ :=
      means_make_sense a id 4 pool answers crew_plays ending x hx pos
    exact ⟨coherent, consistent rfl⟩

end Backgammon.Rollout
