import Backgammon.Proofs.Rollout.Companions

/-!
# Proofs/Rollout/Interruption — a trial that may be interrupted at any moment

    play ∼ play without a token        or        play = nothing

A caller may want a trial to end at any moment.  The wish is a **token** that only the polls see, one
at the start of every turn: the evaluator and the dice go by the rest of the world.  A trial then comes
to what it would have come to without the token, or to nothing.

* `Arena.PollsToken` — an arena whose polls see a token, and nothing else does.
* `Arena.uncancelled` — the arena in which nobody interrupts.
* `blind` — runs that are the same but for the token.
* `PollsToken.play_eq_or_none` — a trial is that of the uncancelled arena, or nothing.
* `playOn_uncancelled_ne_none` — which never comes to nothing itself.
* `PollsToken.play_of_isSet` — with the token set from the start, no roll is drawn.
-/

namespace Backgammon.Rollout

variable {τ κ δ α Board Move : Type} [Scalar α]

/-! ## Runs that do not see the token -/

/-- **Runs that are the same but for the token**: they come to the same and leave the rest of the world
in the same state, whatever the token is on either side. -/
def blind (τ κ : Type) : Lifting (StateM (τ × κ)) (StateM (τ × κ)) where
  Rel x x' := ∀ w k k', (x.run.run (w, k)).1 = (x'.run.run (w, k')).1 ∧
    (x.run.run (w, k)).2.1 = (x'.run.run (w, k')).2.1
  pure _ _ _ _ := ⟨rfl, rfl⟩
  unfinished _ _ _ := ⟨rfl, rfl⟩
  bind {β γ x x' f f'} hx hf w k k' := by
    obtain ⟨same, rest⟩ := hx w k k'
    rw [ExceptT.run_bind, ExceptT.run_bind, StateT.run_bind, StateT.run_bind]
    generalize x.run.run (w, k) = ran at same rest ⊢
    generalize x'.run.run (w, k') = ran' at same rest ⊢
    obtain ⟨outcome, v, l⟩ := ran
    obtain ⟨outcome', v', l'⟩ := ran'
    obtain rfl : outcome = outcome' := same
    obtain rfl : v = v' := rest
    cases outcome with
    | error e => exact ⟨rfl, rfl⟩
    | ok b => exact hf b v l l'

/-- **An arena whose polls see a token**: a poll answers whether it is set, and neither the evaluator nor
the dice go by it.  What becomes of the token meanwhile is left open. -/
structure Arena.PollsToken (a : Arena (StateM (τ × κ)) δ α Board Move) (isSet : κ → Bool) :
    Prop where
  evaluator : ∀ board s c w k k',
    ((a.evaluator board s c).run.run (w, k)).1 = ((a.evaluator board s c).run.run (w, k')).1 ∧
    ((a.evaluator board s c).run.run (w, k)).2.1 = ((a.evaluator board s c).run.run (w, k')).2.1
  roll : ∀ d w k k', ((a.roll d).run.run (w, k)).1 = ((a.roll d).run.run (w, k')).1 ∧
    ((a.roll d).run.run (w, k)).2.1 = ((a.roll d).run.run (w, k')).2.1
  interrupted : ∀ ply w k, ((a.interrupted ply).run (w, k)).1 = isSet k ∧
    ((a.interrupted ply).run (w, k)).2.1 = w

/-- **The arena in which nobody interrupts.** -/
def Arena.uncancelled {m : Type → Type} [Monad m] (a : Arena m δ α Board Move) :
    Arena m δ α Board Move := { a with interrupted := fun _ => pure false }

namespace Arena

/-! ## One turn more -/

section

variable {σ : Type} {a : Arena (StateM σ) δ α Board Move} {t : Trial δ α Board} {s s' : σ}

theorem playOn_of_error {e : TrialError} (h : (a.turn t).run.run s = (.error e, s'))
    (horizon : Nat) : (a.playOn (horizon + 1) t).run.run s = (.error e, s') := by
  rw [playOn, ExceptT.run_bind, StateT.run_bind, h]
  rfl

theorem playOn_of_over {v : Equities α} (h : Yields (a.turn t) s (.over v) s') (horizon : Nat) :
    (a.playOn (horizon + 1) t).run.run s = (.ok (some v), s') := by
  rw [playOn, h.run_bind]
  rfl

theorem playOn_of_interrupted (h : Yields (a.turn t) s .interrupted s') (horizon : Nat) :
    (a.playOn (horizon + 1) t).run.run s = (.ok none, s') := by
  rw [playOn, h.run_bind]
  rfl

theorem playOn_of_next {t' : Trial δ α Board} (h : Yields (a.turn t) s (.next t') s')
    (horizon : Nat) :
    (a.playOn (horizon + 1) t).run.run s = (a.playOn horizon t').run.run s' := by
  rw [playOn, h.run_bind]

/-- **Where nobody interrupts, no trial comes to nothing.** -/
theorem playOn_uncancelled_ne_none (a : Arena (StateM σ) δ α Board Move) (horizon : Nat)
    (t : Trial δ α Board) (s : σ) :
    ((a.uncancelled.playOn horizon t).run.run s).1 ≠ .ok none := by
  induction horizon generalizing t s with
  | zero => exact nofun
  | succ horizon ih =>
    rcases turned : (a.uncancelled.turn t).run.run s with ⟨e | v | _ | t', s'⟩
    · rw [playOn_of_error turned]
      exact nofun
    · rw [playOn_of_over turned]
      exact nofun
    · rcases turn_cases turned with ⟨_, _, ⟨⟩, _⟩ | ⟨_, _, ⟨⟩, _⟩ | ⟨-, s₁, asked⟩
      exact nomatch (congrArg Prod.fst asked : false = true)
    · rw [playOn_of_next turned]
      exact ih t' s'

end

namespace PollsToken

variable {a : Arena (StateM (τ × κ)) δ α Board Move} {isSet : κ → Bool} (h : a.PollsToken isSet)
include h

/-- Evaluator and dice of the two arenas are the same, and blind. -/
theorem companions : Companions (blind τ κ) a a.uncancelled where
  game_eq := rfl
  met_eq := rfl
  settings_eq := rfl
  evaluate board s c := by
    refine (blind τ κ).bind ?_ fun v => (blind τ κ).pure v.repaired
    intro w k k'
    obtain ⟨same, rest⟩ := h.evaluator board s c w k k'
    exact ⟨congrArg (Except.mapError _) same, rest⟩
  draw d w k k' := by
    obtain ⟨same, rest⟩ := h.roll d w k k'
    exact ⟨congrArg (Except.mapError _) same, rest⟩

/-- **A turn is that of the uncancelled arena**, or it is interrupted. -/
theorem turn_eq_or_interrupted (t : Trial δ α Board) (w : τ) (k k' : κ) :
    ((a.turn t).run.run (w, k)).1 = .ok .interrupted ∨
      (((a.turn t).run.run (w, k)).1 = ((a.uncancelled.turn t).run.run (w, k')).1 ∧
        ((a.turn t).run.run (w, k)).2.1 = ((a.uncancelled.turn t).run.run (w, k')).2.1) := by
  by_cases running : a.game.outcome? t.board = none ∧ a.truncates t = false
  · obtain ⟨running, uncut⟩ := running
    have unasked : Yields (liftM (a.uncancelled.interrupted t.ply) :
        ExceptT TrialError (StateM (τ × κ)) Bool) (w, k') false (w, k') := Yields.lift_iff.2 rfl
    rcases asked : (a.interrupted t.ply).run (w, k) with ⟨stop, w₁, k₁⟩
    obtain rfl : w₁ = w := by simpa [asked] using (h.interrupted t.ply w k).2
    rw [turn_eq_of_running running uncut, turn_eq_of_running (a := a.uncancelled) running uncut,
      (Yields.lift_iff.2 asked).run_bind, unasked.run_bind]
    cases stop with
    | true => exact .inl rfl
    | false =>
      exact .inr ((blind τ κ).bind (h.companions.cubeTurn t) (h.companions.afterCube t) w₁ k₁ k')
  · exact .inr (h.companions.turn_of_not_running running w k k')

/-- **A trial is that of the uncancelled arena**, or it comes to nothing. -/
theorem playOn_eq_or_none (horizon : Nat) (t : Trial δ α Board) (w : τ) (k k' : κ) :
    ((a.playOn horizon t).run.run (w, k)).1 = .ok none ∨
      (((a.playOn horizon t).run.run (w, k)).1 = ((a.uncancelled.playOn horizon t).run.run (w, k')).1 ∧
        ((a.playOn horizon t).run.run (w, k)).2.1 =
          ((a.uncancelled.playOn horizon t).run.run (w, k')).2.1) := by
  induction horizon generalizing t w k k' with
  | zero => exact .inr ⟨rfl, rfl⟩
  | succ horizon ih =>
    rcases turned : (a.turn t).run.run (w, k) with ⟨outcome, w₁, k₁⟩
    rcases turned' : (a.uncancelled.turn t).run.run (w, k') with ⟨outcome', w₁', k₁'⟩
    have either := h.turn_eq_or_interrupted t w k k'
    rw [turned, turned'] at either
    rcases either with stop | ⟨same, rest⟩
    · obtain rfl : outcome = .ok .interrupted := stop
      exact .inl (congrArg Prod.fst (playOn_of_interrupted turned horizon))
    · obtain rfl : outcome = outcome' := same
      obtain rfl : w₁ = w₁' := rest
      rcases outcome with e | v | _ | t'
      · rw [playOn_of_error turned, playOn_of_error turned']
        exact .inr ⟨rfl, rfl⟩
      · rw [playOn_of_over turned, playOn_of_over turned']
        exact .inr ⟨rfl, rfl⟩
      · exact .inl (congrArg Prod.fst (playOn_of_interrupted turned horizon))
      · rw [playOn_of_next turned, playOn_of_next turned']
        exact ih t' w₁ k₁ k₁'

/-- **A trial is that of the uncancelled arena**, or it comes to nothing. -/
theorem play_eq_or_none (horizon : Nat) (board : Board) (stakes : Stakes) (dice : δ) (w : τ)
    (k k' : κ) :
    ((a.play horizon board stakes dice).run.run (w, k)).1 = .ok none ∨
      (((a.play horizon board stakes dice).run.run (w, k)).1 =
          ((a.uncancelled.play horizon board stakes dice).run.run (w, k')).1 ∧
        ((a.play horizon board stakes dice).run.run (w, k)).2.1 =
          ((a.uncancelled.play horizon board stakes dice).run.run (w, k')).2.1) :=
  h.playOn_eq_or_none horizon _ w k k'

/-- With the token set a turn goes the same way whatever the dice. -/
theorem turn_of_isSet {k : κ} (set : isSet k = true) (t : Trial δ α Board) (w : τ)
    (roll : δ → ExceptT Fault (StateM (τ × κ)) (Dice × δ)) :
    (({ a with roll } : Arena _ δ α Board Move).turn t).run.run (w, k) =
      (a.turn t).run.run (w, k) := by
  cases running : a.game.outcome? t.board with
  | some o => rw [turn_eq_of_finished running, turn_eq_of_finished (a := { a with roll }) running]
  | none =>
    cases cut : a.truncates t with
    | true =>
      rw [turn_eq_of_cut running cut, turn_eq_of_cut (a := { a with roll }) running cut]
      rfl
    | false =>
      rcases asked : (a.interrupted t.ply).run (w, k) with ⟨stop, w₁⟩
      obtain rfl : stop = true := by simpa [asked, set] using (h.interrupted t.ply w k).1
      have poll : Yields (liftM (a.interrupted t.ply) : ExceptT TrialError (StateM (τ × κ)) Bool)
          (w, k) true w₁ := Yields.lift_iff.2 asked
      rw [turn_eq_of_running running cut,
        turn_eq_of_running (a := { a with roll }) running cut, poll.run_bind,
        poll.run_bind]
      rfl

/-- **With the token set from the start no roll is drawn**: the trial goes the same way whatever the
dice. -/
theorem play_of_isSet {k : κ} (set : isSet k = true) (horizon : Nat) (board : Board)
    (stakes : Stakes) (dice : δ) (w : τ) (roll : δ → ExceptT Fault (StateM (τ × κ)) (Dice × δ)) :
    (({ a with roll } : Arena _ δ α Board Move).play horizon board stakes dice).run.run (w, k) =
      (a.play horizon board stakes dice).run.run (w, k) := by
  cases horizon with
  | zero => rfl
  | succ horizon =>
    have same := h.turn_of_isSet set (.start board stakes dice) w roll
    rcases turned : (a.turn (.start board stakes dice)).run.run (w, k) with ⟨e | v | _ | t, s⟩
    · exact (playOn_of_error (same.trans turned) horizon).trans (playOn_of_error turned horizon).symm
    · exact (playOn_of_over (same.trans turned) horizon).trans (playOn_of_over turned horizon).symm
    · exact (playOn_of_interrupted (same.trans turned) horizon).trans
        (playOn_of_interrupted turned horizon).symm
    · -- a turn that leads on has been told that the token is not set
      obtain ⟨taken, goes⟩ := yields_turn_next_iff.1 turned
      obtain ⟨s₁, s₂, asked, -, -⟩ := goes.plays
      have answer := (h.interrupted 0 w k).1
      rw [set, show (a.interrupted 0).run (w, k) = (false, s₁) from asked] at answer
      cases answer

end PollsToken

end Arena

end Backgammon.Rollout
