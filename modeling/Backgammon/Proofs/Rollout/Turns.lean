import Backgammon.Rollout.Trial

/-!
# Proofs/Rollout/Turns — a trial as a chain of turns

    start ──GoesOn──▸ head ──GoesOn──▸ ⋯ ──▸ head ──EndsBy──▸ result

Evaluator, dice and whoever may interrupt share a world: an arena lives in `StateM σ`, where `σ` is
all that they may look at or change.  Between two turns a trial stands at a **head**.

* `Yields` — a run comes to a value; it passes through `>>=`, `<$>`, a lift and a change of the errors.
* `Arena.GoesOn`, `Arena.EndsBy` — what a turn does that leads on, and the three ways in which one
  ends the trial.
* `Arena.Course` — the heads of a trial, with the doubles that were taken on the way.
* `Arena.yields_play_iff` — a trial has a result just when its course comes to an end in time.
* `Arena.Course.run_play` — from every head on, a trial is what is left of it.
-/

namespace Backgammon

/-- The stakes once a double has been taken, or none been made. -/
def Stakes.turned (s : Stakes) (taken : Bool) : Stakes := if taken then s.doubled else s

namespace Rollout

/-! ## Runs that come to a value -/

section

variable {σ ε ε' β γ : Type}

/-- **A run comes to a value** and leaves the world in the given state. -/
def Yields (x : ExceptT ε (StateM σ) β) (w : σ) (b : β) (w' : σ) : Prop :=
  x.run.run w = (.ok b, w')

instance [DecidableEq β] [DecidableEq σ] (x : ExceptT ε (StateM σ) β) (w : σ) (b : β) (w' : σ) :
    Decidable (Yields x w b w') :=
  match h : x.run.run w with
  | (.ok c, w₁) =>
    decidable_of_iff (c = b ∧ w₁ = w') (by rw [Yields, h, Prod.mk.injEq, Except.ok.injEq])
  | (.error _, _) => isFalse (by rw [Yields, h]; nofun)

namespace Yields

variable {x : ExceptT ε (StateM σ) β} {w w₁ w' : σ} {b c : β}

theorem pure_iff : Yields (pure b : ExceptT ε (StateM σ) β) w c w' ↔ b = c ∧ w = w' := by
  change (Except.ok b, w) = (.ok c, w') ↔ _
  rw [Prod.mk.injEq, Except.ok.injEq]

/-- What follows a value is run with it. -/
theorem run_bind {f : β → ExceptT ε (StateM σ) γ} (h : Yields x w b w₁) :
    (x >>= f).run.run w = (f b).run.run w₁ := by
  rw [ExceptT.run_bind, StateT.run_bind, h]
  rfl

theorem bind_iff {f : β → ExceptT ε (StateM σ) γ} {c : γ} :
    Yields (x >>= f) w c w' ↔ ∃ b w₁, Yields x w b w₁ ∧ Yields (f b) w₁ c w' := by
  constructor
  · intro h
    rcases hx : x.run.run w with ⟨e | b, w₁⟩
    · rw [Yields, ExceptT.run_bind, StateT.run_bind, hx] at h
      cases h
    · rw [Yields, run_bind hx] at h
      exact ⟨b, w₁, hx, h⟩
  · rintro ⟨b, w₁, hx, hf⟩
    exact (run_bind hx).trans hf

theorem map_iff {f : β → γ} {c : γ} :
    Yields (f <$> x) w c w' ↔ ∃ b, Yields x w b w' ∧ f b = c := by
  rw [map_eq_pure_bind, bind_iff]
  simp only [pure_iff]
  exact ⟨fun ⟨b, _, h, eq, rfl⟩ => ⟨b, h, eq⟩, fun ⟨b, h, eq⟩ => ⟨b, w', h, eq, rfl⟩⟩

theorem lift_iff {x : StateM σ β} :
    Yields (liftM x : ExceptT ε (StateM σ) β) w b w' ↔ x.run w = (b, w') := by
  change (Except.ok (x.run w).1, (x.run w).2) = (.ok b, w') ↔ _
  rw [Prod.mk.injEq, Except.ok.injEq, Prod.ext_iff]

/-- Failures may be put in other words. -/
theorem adapt_iff {f : ε → ε'} : Yields (ExceptT.adapt f x) w b w' ↔ Yields x w b w' := by
  change (Except.mapError f (x.run.run w).1, (x.run.run w).2) = (.ok b, w') ↔ _
  rw [Yields, Prod.mk.injEq, Prod.ext_iff]
  cases (x.run.run w).1 with
  | error e =>
    change Except.error (f e) = .ok b ∧ _ ↔ Except.error e = .ok b ∧ _
    simp only [reduceCtorEq, false_and]
  | ok c =>
    change Except.ok c = .ok b ∧ _ ↔ Except.ok c = .ok b ∧ _
    simp only [Except.ok.injEq]

/-! Steps taken one after the other -/

section

variable {f : β → ExceptT ε (StateM σ) γ} {g : γ → β} {Q : γ → Prop} {bs : List β} {cs : List γ}

/-- What holds of every step holds of all that a row of steps comes to. -/
theorem forall_of_mapM (each : ∀ b w c w', Yields (f b) w c w' → g c = b ∧ Q c) {w w' : σ}
    (h : Yields (bs.mapM f) w cs w') : cs.map g = bs ∧ ∀ c ∈ cs, Q c := by
  induction bs generalizing cs w w' with
  | nil =>
    obtain ⟨rfl, -⟩ := pure_iff.1 h
    exact ⟨rfl, nofun⟩
  | cons b bs ih =>
    rw [List.mapM_cons] at h
    obtain ⟨c, w₁, first, h⟩ := bind_iff.1 h
    obtain ⟨rest, w₂, others, h⟩ := bind_iff.1 h
    obtain ⟨rfl, -⟩ := pure_iff.1 h
    obtain ⟨same, hc⟩ := each b w c w₁ first
    obtain ⟨map_eq, hrest⟩ := ih others
    exact ⟨by rw [List.map_cons, same, map_eq], List.forall_mem_cons.2 ⟨hc, hrest⟩⟩

/-- A step and a row of steps make a longer row. -/
theorem mapM_cons {b : β} {c : γ} {w w₁ w' : σ} (first : Yields (f b) w c w₁)
    (rest : Yields (bs.mapM f) w₁ cs w') : Yields ((b :: bs).mapM f) w (c :: cs) w' := by
  rw [List.mapM_cons]
  exact bind_iff.2 ⟨c, w₁, first, bind_iff.2 ⟨cs, w', rest, pure_iff.2 ⟨rfl, rfl⟩⟩⟩

/-- Steps that each come to a value do so in a row. -/
theorem exists_mapM (each : ∀ b ∈ bs, ∀ w, ∃ c w', Yields (f b) w c w' ∧ g c = b ∧ Q c) (w : σ) :
    ∃ cs w', Yields (bs.mapM f) w cs w' ∧ cs.map g = bs ∧ ∀ c ∈ cs, Q c := by
  induction bs generalizing w with
  | nil => exact ⟨[], w, pure_iff.2 ⟨rfl, rfl⟩, rfl, nofun⟩
  | cons b bs ih =>
    obtain ⟨first, rest⟩ := List.forall_mem_cons.1 each
    obtain ⟨c, w₁, hc, same, holds⟩ := first w
    obtain ⟨cs, w₂, hcs, map_eq, hold⟩ := ih rest w₁
    exact ⟨c :: cs, w₂, mapM_cons hc hcs, by rw [List.map_cons, same, map_eq],
      List.forall_mem_cons.2 ⟨holds, hold⟩⟩

/-- Steps whose values are known come to them in a row. -/
theorem exists_mapM_map {h : β → γ} (each : ∀ b ∈ bs, ∀ w, ∃ w', Yields (f b) w (h b) w') (w : σ) :
    ∃ w', Yields (bs.mapM f) w (bs.map h) w' := by
  induction bs generalizing w with
  | nil => exact ⟨w, pure_iff.2 ⟨rfl, rfl⟩⟩
  | cons b bs ih =>
    obtain ⟨first, rest⟩ := List.forall_mem_cons.1 each
    obtain ⟨w₁, hb⟩ := first w
    obtain ⟨w₂, hbs⟩ := ih rest w₁
    exact ⟨w₂, mapM_cons hb hbs⟩

end

end Yields

end

/-! ## One turn -/

/-- **How a trial ends.** -/
inductive TrialEnd where
  /-- The game is over. -/
  | finished (o : Outcome)
  /-- The trial is cut short, and its position evaluated. -/
  | cut
  /-- The opponent passes a double. -/
  | passed
deriving DecidableEq, Repr

variable {δ α Board Move : Type} [Scalar α]

namespace Arena

section

variable {m : Type → Type} [Monad m] (a : Arena m δ α Board Move) (t : Trial δ α Board)

/-- **What happens to the cube in a turn**: nothing where it may not be turned. -/
def cubeTurn : ExceptT TrialError m (CubeTurn α) :=
  if a.mayDouble t.stakes t.ply then
    a.cubeAction t.board t.stakes (a.settings.forCube t.stakes.onRoll t.ply)
  else pure .unturned

/-- The rest of a turn, after what has happened to the cube. -/
def afterCube : CubeTurn α → ExceptT TrialError m (Turn δ α Board)
  | .unturned => .next <$> a.rollAndPlay t
  | .taken => .next <$> a.rollAndPlay { t with stakes := t.stakes.doubled }
  | .passed v => pure (.over (t.result v))

variable {a t}

theorem turn_eq_of_finished {o : Outcome} (ended : a.game.outcome? t.board = some o) :
    a.turn t =
      pure (.over (t.result (Equities.ofOutcome o (a.met.outcomeValue t.stakes o)))) := by
  rw [turn, ended]

theorem turn_eq_of_cut (running : a.game.outcome? t.board = none) (cut : a.truncates t = true) :
    a.turn t = (do
      let v ← a.evaluate t.board t.stakes
        { a.settings.truncation with cubeful := a.settings.cubeful }
      return .over (t.result v)) := by
  simp only [turn, running, cut, if_true]

variable [LawfulMonad m]

/-- In a trial that goes on the user is asked first, and the cube comes next. -/
theorem turn_eq_of_running (running : a.game.outcome? t.board = none)
    (uncut : a.truncates t = false) :
    a.turn t = (do
      if ← a.interrupted t.ply then return .interrupted else a.afterCube t (← a.cubeTurn t)) := by
  simp only [turn, running, uncut, Bool.false_eq_true, if_false, cubeTurn]
  cases a.mayDouble t.stakes t.ply with
  | false => simp only [Bool.false_eq_true, if_false, pure_bind]; rfl
  | true => rfl

end

variable {σ : Type} (a : Arena (StateM σ) δ α Board Move)

/-- **A turn leads on**: the game is not over, the trial neither cut short nor interrupted, a double
is taken or none made, and a roll is played. -/
structure GoesOn (t : Trial δ α Board) (w : σ) (taken : Bool) (t' : Trial δ α Board) (w' : σ) :
    Prop where
  running : a.game.outcome? t.board = none
  uncut : a.truncates t = false
  plays : ∃ w₁ w₂, (a.interrupted t.ply).run w = (false, w₁) ∧
    Yields (a.cubeTurn t) w₁ (if taken then .taken else .unturned) w₂ ∧
    Yields (a.rollAndPlay { t with stakes := t.stakes.turned taken }) w₂ t' w'

/-- **A turn ends the trial** with a result: the game is over, the trial is cut short, or a double is
passed. -/
inductive EndsBy (t : Trial δ α Board) (w : σ) : TrialEnd → Equities α → σ → Prop
  | finished {o} (ended : a.game.outcome? t.board = some o) :
    EndsBy t w (.finished o) (t.result (.ofOutcome o (a.met.outcomeValue t.stakes o))) w
  | cut {v w'} (running : a.game.outcome? t.board = none) (cut : a.truncates t = true)
    (estimate : Yields (a.evaluate t.board t.stakes
      { a.settings.truncation with cubeful := a.settings.cubeful }) w v w') :
    EndsBy t w .cut (t.result v) w'
  | passed {v w₁ w'} (running : a.game.outcome? t.board = none) (uncut : a.truncates t = false)
    (uninterrupted : (a.interrupted t.ply).run w = (false, w₁))
    (offer : Yields (a.cubeTurn t) w₁ (.passed v) w') : EndsBy t w .passed (t.result v) w'

variable {a} {t t' : Trial δ α Board} {w w' : σ} {taken : Bool} {e : TrialEnd} {v : Equities α}

theorem GoesOn.yields_turn (h : a.GoesOn t w taken t' w') : Yields (a.turn t) w (.next t') w' := by
  obtain ⟨running, uncut, w₁, w₂, asked, turned, played⟩ := h
  rw [turn_eq_of_running running uncut]
  refine Yields.bind_iff.2 ⟨false, w₁, Yields.lift_iff.2 asked, Yields.bind_iff.2 ⟨_, w₂, turned, ?_⟩⟩
  cases taken <;> exact Yields.map_iff.2 ⟨t', played, rfl⟩

theorem EndsBy.yields_turn (h : a.EndsBy t w e v w') : Yields (a.turn t) w (.over v) w' := by
  cases h with
  | finished ended =>
    rw [turn_eq_of_finished ended]
    exact Yields.pure_iff.2 ⟨rfl, rfl⟩
  | cut running cut estimate =>
    rw [turn_eq_of_cut running cut]
    exact Yields.bind_iff.2 ⟨_, _, estimate, Yields.pure_iff.2 ⟨rfl, rfl⟩⟩
  | passed running uncut uninterrupted offer =>
    rw [turn_eq_of_running running uncut]
    exact Yields.bind_iff.2 ⟨false, _, Yields.lift_iff.2 uninterrupted,
      Yields.bind_iff.2 ⟨_, _, offer, Yields.pure_iff.2 ⟨rfl, rfl⟩⟩⟩

/-- **What a turn does**: it leads on, it ends the trial, or it is interrupted by the one who is
asked. -/
theorem turn_cases {x : Turn δ α Board} (h : Yields (a.turn t) w x w') :
    (∃ taken t', x = .next t' ∧ a.GoesOn t w taken t' w') ∨
      (∃ e v, x = .over v ∧ a.EndsBy t w e v w') ∨
      x = .interrupted ∧ ∃ w₁, (a.interrupted t.ply).run w = (true, w₁) := by
  cases ended : a.game.outcome? t.board with
  | some o =>
    rw [turn_eq_of_finished ended] at h
    obtain ⟨rfl, rfl⟩ := Yields.pure_iff.1 h
    exact .inr (.inl ⟨_, _, rfl, .finished ended⟩)
  | none =>
    cases cut : a.truncates t with
    | true =>
      rw [turn_eq_of_cut ended cut] at h
      obtain ⟨v, w₁, estimate, h⟩ := Yields.bind_iff.1 h
      obtain ⟨rfl, rfl⟩ := Yields.pure_iff.1 h
      exact .inr (.inl ⟨_, _, rfl, .cut ended cut estimate⟩)
    | false =>
      rw [turn_eq_of_running ended cut] at h
      obtain ⟨stop, w₁, asked, h⟩ := Yields.bind_iff.1 h
      replace asked := Yields.lift_iff.1 asked
      cases stop with
      | true => exact .inr (.inr ⟨(Yields.pure_iff.1 h).1.symm, w₁, asked⟩)
      | false =>
        obtain ⟨act, w₂, turned, h⟩ := Yields.bind_iff.1 h
        cases act with
        | unturned =>
          obtain ⟨t', played, rfl⟩ := Yields.map_iff.1 h
          exact .inl ⟨false, t', rfl, ended, cut, w₁, w₂, asked, turned, played⟩
        | taken =>
          obtain ⟨t', played, rfl⟩ := Yields.map_iff.1 h
          exact .inl ⟨true, t', rfl, ended, cut, w₁, w₂, asked, turned, played⟩
        | passed v =>
          obtain ⟨rfl, rfl⟩ := Yields.pure_iff.1 h
          exact .inr (.inl ⟨_, _, rfl, .passed ended cut asked turned⟩)

theorem yields_turn_next_iff :
    Yields (a.turn t) w (.next t') w' ↔ ∃ taken, a.GoesOn t w taken t' w' := by
  refine ⟨fun h => ?_, fun ⟨_, h⟩ => h.yields_turn⟩
  rcases turn_cases h with ⟨taken, _, ⟨⟩, goes⟩ | ⟨_, _, ⟨⟩, _⟩ | ⟨⟨⟩, _⟩
  exact ⟨taken, goes⟩

/-- **What a roll changes**: the roll is drawn, the turn passes, and the luck changes only if it is to be
taken off. -/
theorem exists_eq_of_rollAndPlay (h : Yields (a.rollAndPlay t) w t' w') :
    ∃ board luck dice, t' = { t with
        board, luck, dice
        stakes := t.stakes.swapTurn
        flipped := !t.flipped
        ply := t.ply + 1 } ∧
      (∃ roll w₁ w₂, Yields (a.roll t.dice) w₁ (roll, dice) w₂) ∧
      (a.settings.varianceReduction = false → luck = t.luck) := by
  rw [rollAndPlay] at h
  obtain ⟨⟨roll, dice⟩, w₁, rolled, h⟩ := Yields.bind_iff.1 h
  replace rolled := Yields.adapt_iff.1 rolled
  cases noted : a.settings.varianceReduction with
  | true =>
    simp only [noted, if_true] at h
    obtain ⟨luck, w₂, -, h⟩ := Yields.bind_iff.1 h
    obtain ⟨board, w₃, -, h⟩ := Yields.bind_iff.1 h
    obtain ⟨rfl, -⟩ := Yields.pure_iff.1 h
    exact ⟨board, luck, dice, rfl, ⟨roll, _, _, rolled⟩, nofun⟩
  | false =>
    simp only [noted, Bool.false_eq_true, if_false, pure_bind] at h
    obtain ⟨board, w₂, -, h⟩ := Yields.bind_iff.1 h
    obtain ⟨rfl, -⟩ := Yields.pure_iff.1 h
    exact ⟨board, t.luck, dice, rfl, ⟨roll, _, _, rolled⟩, fun _ => rfl⟩

/-- **What a turn that leads on changes**: a double moves the cube, and a roll is played. -/
theorem GoesOn.exists_eq (h : a.GoesOn t w taken t' w') :
    ∃ board luck dice, t' = { t with
        board, luck, dice
        stakes := (t.stakes.turned taken).swapTurn
        flipped := !t.flipped
        ply := t.ply + 1 } ∧
      (∃ roll w₁ w₂, Yields (a.roll t.dice) w₁ (roll, dice) w₂) ∧
      (a.settings.varianceReduction = false → luck = t.luck) := by
  obtain ⟨-, -, -, w₂, -, -, played⟩ := h
  exact exists_eq_of_rollAndPlay played

theorem GoesOn.ply_eq (h : a.GoesOn t w taken t' w') : t'.ply = t.ply + 1 := by
  obtain ⟨_, _, _, rfl, -, -⟩ := h.exists_eq
  rfl

/-! ## Whole trials -/

variable (a) in
/-- **The course of a trial**: the heads that are reached from a first one, with the world there and
the stakes at which the doubles so far were made. -/
inductive Course (t₀ : Trial δ α Board) (w₀ : σ) : List Stakes → Trial δ α Board → σ → Prop
  | start : Course t₀ w₀ [] t₀ w₀
  | next {doubles t w taken t' w'} (before : Course t₀ w₀ doubles t w)
    (turn : a.GoesOn t w taken t' w') :
    Course t₀ w₀ (if taken then doubles ++ [t.stakes] else doubles) t' w'

variable {board : Board} {stakes : Stakes} {dice : δ} {w₀ : σ} {doubles : List Stakes}

/-- **From every head on, a trial is what is left of it.** -/
theorem Course.run_play (h : a.Course (.start board stakes dice) w₀ doubles t w) (horizon : Nat) :
    (a.play (horizon + t.ply) board stakes dice).run.run w₀ = (a.playOn horizon t).run.run w := by
  induction h generalizing horizon with
  | start => rfl
  | @next doubles t w taken t' w' _ turn ih =>
    rw [turn.ply_eq, show horizon + (t.ply + 1) = horizon + 1 + t.ply by omega, ih, playOn,
      turn.yields_turn.run_bind]

/-- A trial that comes to a result from a head on goes on from there to its end. -/
theorem Course.exists_of_playOn (h : a.Course (.start board stakes dice) w₀ doubles t w)
    {horizon : Nat} (played : Yields (a.playOn horizon t) w (some v) w') :
    ∃ doubles t₁ w₁ e, t₁.ply < horizon + t.ply ∧
      a.Course (.start board stakes dice) w₀ doubles t₁ w₁ ∧ a.EndsBy t₁ w₁ e v w' := by
  induction horizon generalizing doubles t w with
  | zero => cases played
  | succ horizon ih =>
    rw [playOn] at played
    obtain ⟨x, w₁, turned, played⟩ := Yields.bind_iff.1 played
    rcases turn_cases turned with ⟨taken, t', rfl, goes⟩ | ⟨e, v, rfl, ends⟩ | ⟨rfl, -⟩
    · obtain ⟨doubles, t₁, w₁, e, inTime, course, ends⟩ := ih (h.next goes) played
      rw [goes.ply_eq] at inTime
      exact ⟨doubles, t₁, w₁, e, by omega, course, ends⟩
    · obtain ⟨⟨⟩, rfl⟩ := Yields.pure_iff.1 played
      exact ⟨doubles, t, w, e, by omega, h, ends⟩
    · cases (Yields.pure_iff.1 played).1

/-- **A trial has a result just when its course comes to an end in time**, and it is that of the
end. -/
theorem yields_play_iff {horizon : Nat} :
    Yields (a.play horizon board stakes dice) w₀ (some v) w' ↔
      ∃ doubles t w e, t.ply < horizon ∧
        a.Course (.start board stakes dice) w₀ doubles t w ∧ a.EndsBy t w e v w' := by
  constructor
  · exact Course.start.exists_of_playOn
  · rintro ⟨doubles, t, w, e, inTime, course, ends⟩
    obtain ⟨left, rfl⟩ := Nat.exists_eq_add_of_lt inTime
    rw [show t.ply + left + 1 = left + 1 + t.ply by omega, Yields, course.run_play, playOn,
      ends.yields_turn.run_bind]
    rfl

end Arena

end Rollout

end Backgammon
