import Backgammon.Proofs.Rollout.Turns

/-!
# Proofs/Rollout/Companions — two arenas side by side

    evaluate ∼ evaluate     draw ∼ draw     interrupted ∼ interrupted
    ─────────────────────────────────────────────────────────────────
                     turn ∼ turn     play ∼ play

All that a trial learns from outside it learns from the evaluator, the dice and whoever may interrupt
it.  A relation between runs that passes through `>>=` holds between two whole trials once it holds
between the answers of these three.

* `Lifting` — a relation between runs in two monads that passes through `pure` and `>>=`.
* `Arena.draw` — a roll, with its faults as errors of the trial.
* `Companions` — two arenas that agree but for whom they ask, and whose answers are related.
* `Companions.cubeTurn`, `Companions.afterCube` — then the parts of a turn are related.
* `Companions.play` — and so are whole trials, if the two are interrupted alike.
-/

namespace Backgammon

/-- A fault of the evaluator, as the end of a trial. -/
def Fault.ofEvaluator : Fault → Rollout.TrialError
  | .failed reason => .evaluator reason
  | .crashed => .crashed

/-- A fault of the dice, as the end of a trial. -/
def Fault.ofDice : Fault → Rollout.TrialError
  | .failed reason => .dice reason
  | .crashed => .crashed

namespace Rollout

/-! ## Relations between runs -/

section

variable (m m' : Type → Type) [Monad m] [Monad m']

/-- **A relation between runs in two monads** that passes through `pure` and `>>=`, and holds between
trials that do not end. -/
structure Lifting where
  Rel : ∀ {β : Type}, ExceptT TrialError m β → ExceptT TrialError m' β → Prop
  pure : ∀ {β : Type} (b : β), Rel (Pure.pure b) (Pure.pure b)
  bind : ∀ {β γ : Type} {x : ExceptT TrialError m β} {x' : ExceptT TrialError m' β}
    {f : β → ExceptT TrialError m γ} {f' : β → ExceptT TrialError m' γ},
    Rel x x' → (∀ b, Rel (f b) (f' b)) → Rel (x >>= f) (x' >>= f')
  unfinished : ∀ {β : Type}, Rel (throw .unfinished : ExceptT TrialError m β) (throw .unfinished)

end

namespace Lifting

variable {m m' : Type → Type} [Monad m] [Monad m'] [LawfulMonad m] [LawfulMonad m']
  (L : Lifting m m') {β γ : Type}

theorem map {x : ExceptT TrialError m β} {x' : ExceptT TrialError m' β} (h : L.Rel x x')
    (f : β → γ) : L.Rel (f <$> x) (f <$> x') := by
  rw [map_eq_pure_bind, map_eq_pure_bind]
  exact L.bind h fun b => L.pure (f b)

theorem mapM {f : β → ExceptT TrialError m γ} {f' : β → ExceptT TrialError m' γ}
    (h : ∀ b, L.Rel (f b) (f' b)) (bs : List β) : L.Rel (bs.mapM f) (bs.mapM f') := by
  induction bs with
  | nil =>
    rw [List.mapM_nil, List.mapM_nil]
    exact L.pure []
  | cons b bs ih =>
    rw [List.mapM_cons, List.mapM_cons]
    exact L.bind (h b) fun c => L.bind ih fun cs => L.pure (c :: cs)

end Lifting

/-! ## Two arenas -/

variable {δ α Board Move : Type} [Scalar α] {m m' : Type → Type} [Monad m] [Monad m']

/-- **The next roll**, with the faults of the dice as errors of the trial. -/
def Arena.draw (a : Arena m δ α Board Move) (d : δ) : ExceptT TrialError m (Dice × δ) :=
  ExceptT.adapt Fault.ofDice (a.roll d)

/-- **Two arenas side by side**: they play the same game under the same settings, and what the
evaluators answer and the dice show is related. -/
structure Companions (L : Lifting m m') (a : Arena m δ α Board Move) (b : Arena m' δ α Board Move) :
    Prop where
  game_eq : b.game = a.game
  met_eq : b.met = a.met
  settings_eq : b.settings = a.settings
  evaluate : ∀ board s c, L.Rel (a.evaluate board s c) (b.evaluate board s c)
  draw : ∀ d, L.Rel (a.draw d) (b.draw d)

namespace Companions

variable {L : Lifting m m'} {a : Arena m δ α Board Move}
  {b : Arena m' δ α Board Move} (h : Companions L a b)
include h

theorem equityAfter (next : Board) (s : Stakes) (c : EvalSettings α) :
    L.Rel (a.equityAfter next s c) (b.equityAfter next s c) := by
  rw [Arena.equityAfter, Arena.equityAfter, h.game_eq, h.met_eq]
  cases a.game.outcome? next with
  | some o => exact L.pure _
  | none => exact L.bind (h.evaluate ..) fun _ => L.pure _

theorem rate (board : Board) (s : Stakes) (c : EvalSettings α) (index : Nat) (move : Move) :
    L.Rel (a.rate board s c index move) (b.rate board s c index move) := by
  rw [Arena.rate, Arena.rate, h.game_eq]
  exact L.bind (h.equityAfter ..) fun _ => L.pure _

theorem cubeAction (board : Board) (s : Stakes) (c : EvalSettings α) :
    L.Rel (a.cubeAction board s c) (b.cubeAction board s c) := by
  rw [Arena.cubeAction, Arena.cubeAction, h.met_eq]
  refine L.bind (h.evaluate ..) fun _ => L.bind (h.evaluate ..) fun _ => ?_
  dsimp only
  split <;> exact L.pure _

/-- **What happens to the cube** is related. -/
theorem cubeTurn (t : Trial δ α Board) : L.Rel (a.cubeTurn t) (b.cubeTurn t) := by
  have allowed : b.mayDouble t.stakes t.ply = a.mayDouble t.stakes t.ply := by
    rw [Arena.mayDouble, Arena.mayDouble, h.settings_eq]
  rw [Arena.cubeTurn, Arena.cubeTurn, h.settings_eq, allowed]
  split
  · exact h.cubeAction ..
  · exact L.pure _

/-- A trial that is over or cut short goes the same way without anybody being asked. -/
theorem turn_of_not_running {t : Trial δ α Board}
    (ended : ¬ (a.game.outcome? t.board = none ∧ a.truncates t = false)) :
    L.Rel (a.turn t) (b.turn t) := by
  have same : b.truncates t = a.truncates t := by
    rw [Arena.truncates, Arena.truncates, h.settings_eq, h.game_eq]
  cases running : a.game.outcome? t.board with
  | some o =>
    rw [Arena.turn_eq_of_finished running, Arena.turn_eq_of_finished (h.game_eq ▸ running), h.met_eq]
    exact L.pure _
  | none =>
    have cut : a.truncates t = true :=
      eq_true_of_ne_false fun uncut => ended ⟨running, uncut⟩
    rw [Arena.turn_eq_of_cut running cut,
      Arena.turn_eq_of_cut (h.game_eq ▸ running) (same.trans cut), h.settings_eq]
    exact L.bind (h.evaluate ..) fun _ => L.pure _

variable [LawfulMonad m] [LawfulMonad m']

theorem chooseMove (board : Board) (s : Stakes) (first : Move) (rest : List Move)
    (c : EvalSettings α) :
    L.Rel (a.chooseMove board s first rest c) (b.chooseMove board s first rest c) := by
  rw [Arena.chooseMove, Arena.chooseMove, h.settings_eq]
  split
  · exact L.pure _
  refine L.bind (L.mapM ?_ _) fun screened => ?_
  · exact fun x => h.rate board s _ x.2 x.1
  dsimp only
  cases ranked screened with
  | nil => exact L.pure _
  | cons best more =>
    cases a.settings.moveFilter? c.plies with
    | none => exact L.pure _
    | some f =>
      refine L.bind (L.mapM ?_ _) fun deeper => L.pure _
      exact fun x => h.rate board s c x.index x.move

theorem playRoll (board : Board) (s : Stakes) (roll : Dice) (c : EvalSettings α) :
    L.Rel (a.playRoll board s roll c) (b.playRoll board s roll c) := by
  rw [Arena.playRoll, Arena.playRoll, h.game_eq]
  cases a.game.legalMoves board roll with
  | nil => exact L.pure _
  | cons first rest => exact L.bind (h.chooseMove ..) fun _ => L.pure _

theorem rollValue (t : Trial δ α Board) (roll : Dice) :
    L.Rel (a.rollValue t roll) (b.rollValue t roll) := by
  rw [Arena.rollValue, Arena.rollValue, h.game_eq, h.met_eq, h.settings_eq]
  refine L.bind (h.playRoll ..) fun next => ?_
  dsimp only
  cases a.game.outcome? next with
  | some o => exact L.bind (L.pure _) fun _ => L.pure _
  | none => exact L.bind (h.evaluate ..) fun _ => L.pure _

theorem rollLuck (t : Trial δ α Board) (roll : Dice) :
    L.Rel (a.rollLuck t roll) (b.rollLuck t roll) := by
  rw [Arena.rollLuck, Arena.rollLuck, Arena.possibleRolls, Arena.possibleRolls, h.settings_eq]
  refine L.bind (L.mapM (fun d => ?_) _) fun _ => L.pure _
  exact L.bind (h.rollValue t d) fun _ => L.pure _

theorem rollAndPlay (t : Trial δ α Board) : L.Rel (a.rollAndPlay t) (b.rollAndPlay t) := by
  rw [Arena.rollAndPlay, Arena.rollAndPlay, h.settings_eq]
  refine L.bind (h.draw t.dice) ?_
  rintro ⟨roll, dice⟩
  dsimp only
  split
  · exact L.bind (L.map (h.rollLuck ..) _) fun _ => L.bind (h.playRoll ..) fun _ => L.pure _
  · exact L.bind (L.pure _) fun _ => L.bind (h.playRoll ..) fun _ => L.pure _

/-- **The rest of a turn**, after what has happened to the cube, is related. -/
theorem afterCube (t : Trial δ α Board) (act : CubeTurn α) :
    L.Rel (a.afterCube t act) (b.afterCube t act) := by
  cases act with
  | unturned => exact L.map (h.rollAndPlay t) _
  | taken => exact L.map (h.rollAndPlay _) _
  | passed v => exact L.pure _

/-! ## Whole trials -/

variable (alike : ∀ ply, L.Rel (liftM (a.interrupted ply)) (liftM (b.interrupted ply)))
include alike

theorem turn (t : Trial δ α Board) : L.Rel (a.turn t) (b.turn t) := by
  by_cases running : a.game.outcome? t.board = none ∧ a.truncates t = false
  · obtain ⟨running, uncut⟩ := running
    have uncut' : b.truncates t = false := by
      rwa [Arena.truncates, h.settings_eq, h.game_eq]
    rw [Arena.turn_eq_of_running running uncut,
      Arena.turn_eq_of_running (h.game_eq ▸ running) uncut']
    refine L.bind (alike t.ply) fun stop => ?_
    split
    · exact L.pure _
    · exact L.bind (h.cubeTurn t) (h.afterCube t)
  · exact h.turn_of_not_running running

theorem playOn (horizon : Nat) (t : Trial δ α Board) :
    L.Rel (a.playOn horizon t) (b.playOn horizon t) := by
  induction horizon generalizing t with
  | zero => exact L.unfinished
  | succ horizon ih =>
    rw [Arena.playOn, Arena.playOn]
    refine L.bind (h.turn alike t) fun x => ?_
    rcases x with v | _ | t
    · exact L.pure _
    · exact L.pure _
    · exact ih t

/-- **Whole trials are related**, step by step. -/
theorem play (horizon : Nat) (board : Board) (stakes : Stakes) (dice : δ) :
    L.Rel (a.play horizon board stakes dice) (b.play horizon board stakes dice) :=
  h.playOn alike horizon _

end Companions

end Rollout

end Backgammon
