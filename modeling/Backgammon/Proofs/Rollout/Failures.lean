import Backgammon.Proofs.Rollout.Batch
import Backgammon.Proofs.Rollout.Ledger

/-!
# Proofs/Rollout/Failures — a run fails with its last batch

* `ending_cases` — either a run has a result, and no batch that it handed out fails, or it fails with
  one of the failures of its last batch, and no batch before that one fails.
* `exists_result_of_sound`, `failsWith_of_mem` — which of the two it is, read off the batches.
-/

namespace Backgammon.Rollout

variable {σ α : Type} [Scalar α] [RealFunctions α] {c : Settings α} {crew : Crew (StateM σ) α}
  {play : Outcomes α} {workers candidates : Nat} {s : σ}

/-- The batches in the ledger are sound. -/
def Stage.Sound (play : Outcomes α) (x : Stage (σ × List (List Task)) α) : Prop :=
  ∀ batch ∈ x.world.2, ¬ Fails play batch

variable {x y : Stage (σ × List (List Task)) α} {w : σ × List (List Task)} {r : Run α}

omit [Scalar α] [RealFunctions α] in
/-- A sound batch is added to the ledger. -/
theorem Stage.Sound.append {batch : List Task} (hx : x.Sound play) (sound : ¬ Fails play batch) :
    ∀ b ∈ x.world.2 ++ [batch], ¬ Fails play b := by
  intro b hb
  rcases List.mem_append.1 hb with old | new
  · exact hx b old
  · rwa [List.mem_singleton.1 new]

/-- A run goes on after sound batches only. -/
theorem Stage.Sound.advance (hx : x.Sound play) (crew_plays : crew.PlayedBy workers play)
    (step : Advance c crew.logged x y) : y.Sound play := by
  rw [Stage.Sound, step.unlogged.2]
  obtain ⟨played, sound, -, -, -⟩ := step
  exact hx.append ((failure?_eq_none_iff (played.unlogged.1.delivers crew_plays)).1 sound)

/-- **How the run ends at a stage**, read off its ledger. -/
theorem Ends.ending_cases (h : Ends c crew.logged x r w) (hx : x.Sound play)
    (crew_plays : crew.PlayedBy workers play) :
    (∃ result, r.ending = .ok result ∧ ∀ batch ∈ w.2, ¬ Fails play batch) ∨
      ∃ batch e, w.2 = x.world.2 ++ [batch] ∧ r.ending = .error e ∧
        FailsWith workers play batch e := by
  have closed {state : RunState α} {status : Status} {w' : σ × List (List Task)}
      (fin : (finish c crew.logged state status).run w' = (r, w)) :
      (∃ result, r.ending = .ok result) ∧ w.2 = w'.2 := by
    obtain ⟨fin, ledger⟩ := finish_logged fin
    exact ⟨⟨_, congrArg Run.ending (eq_close_of_finish fin)⟩, ledger⟩
  cases h with
  | cancelled ask fin | completed none_left ask fin =>
    obtain ⟨⟨result, ok⟩, ledger⟩ := closed fin
    rw [ledger, (run_of_alongside ask).2]
    exact .inl ⟨result, ok, hx⟩
  | failed played failed =>
    obtain ⟨played, ledger⟩ := played.unlogged
    exact .inr ⟨_, _, ledger, rfl, failsWith_of_failure? (played.delivers crew_plays) failed⟩
  | interrupted played sound cut fin =>
    obtain ⟨⟨result, ok⟩, ledger⟩ := closed fin
    obtain ⟨played, added⟩ := played.unlogged
    rw [ledger, added]
    exact .inl ⟨result, ok, hx.append ((failure?_eq_none_iff (played.delivers crew_plays)).1 sound)⟩
  | stopped played sound whole stop clock fin =>
    obtain ⟨⟨result, ok⟩, ledger⟩ := closed fin
    obtain ⟨played, added⟩ := played.unlogged
    rw [ledger, worldShown_logged, (run_of_alongside clock).2, added]
    exact .inl ⟨result, ok, hx.append ((failure?_eq_none_iff (played.delivers crew_plays)).1 sound)⟩

/-- **A run has a result unless its last batch fails.** -/
theorem ending_cases (valid : c.validate = .ok ()) (crew_plays : crew.PlayedBy workers play)
    (candidates : Nat) (s : σ) :
    (∃ result, ((run c crew candidates).run s).1.ending = .ok result ∧
        ∀ batch ∈ handedOut c crew candidates s, ¬ Fails play batch) ∨
      ∃ before batch e, handedOut c crew candidates s = before ++ [batch] ∧
        (∀ b ∈ before, ¬ Fails play b) ∧
        ((run c crew candidates).run s).1.ending = .error e ∧ FailsWith workers play batch e := by
  rw [run_logged c crew candidates (s, [])]
  have start : (Stage.first c candidates (s, ([] : List (List Task)))).Sound play :=
    fun _ h => absurd h List.not_mem_nil
  obtain ⟨last, hlast, ends⟩ := exists_last_stage valid crew.logged start
    fun _ _ step hx => hx.advance crew_plays step
  rcases ends.ending_cases hlast crew_plays with sound | ⟨batch, e, ledger, failed, which⟩
  · exact .inl sound
  · exact .inr ⟨_, batch, e, ledger, hlast, failed, which⟩

/-- **A run that hands out sound batches only has a result.** -/
theorem exists_result_of_sound (valid : c.validate = .ok ()) (crew_plays : crew.PlayedBy workers play)
    (sound : ∀ batch ∈ handedOut c crew candidates s, ¬ Fails play batch) :
    ∃ result, ((run c crew candidates).run s).1.ending = .ok result := by
  rcases ending_cases valid crew_plays candidates s with
    ⟨result, ok, -⟩ | ⟨before, batch, e, ledger, -, -, failure⟩
  · exact ⟨result, ok⟩
  · exact absurd failure.fails (sound batch (by simp [ledger]))

/-- **A run that hands out a batch which fails has a failure of that batch.** -/
theorem failsWith_of_mem (valid : c.validate = .ok ()) (crew_plays : crew.PlayedBy workers play)
    {batch : List Task} (handed : batch ∈ handedOut c crew candidates s) (fails : Fails play batch) :
    ∃ e, ((run c crew candidates).run s).1.ending = .error e ∧ FailsWith workers play batch e := by
  rcases ending_cases valid crew_plays candidates s with
    ⟨_, -, sound⟩ | ⟨before, last, e, ledger, sound, failed, failure⟩
  · exact absurd fails (sound batch handed)
  · rw [ledger, List.mem_append, List.mem_singleton] at handed
    obtain rfl := handed.resolve_left fun old => sound batch old fails
    exact ⟨e, failed, failure⟩

/-- A run without failing trials has a result. -/
theorem exists_result (valid : c.validate = .ok ()) (crew_plays : crew.PlayedBy workers play)
    (sound : ∀ t e, play t ≠ .error e) (candidates : Nat) (s : σ) :
    ∃ result, ((run c crew candidates).run s).1.ending = .ok result := by
  refine exists_result_of_sound valid crew_plays ?_
  rintro batch - ⟨t, -, e, he⟩
  exact sound t e he

end Backgammon.Rollout
