import Backgammon.Rollout.Trial
import Mathlib.Tactic.Choose

/-!
# Proofs/Rollout/Reliable — arenas in which nothing fails

A trial stops early when the evaluator fails or the user interrupts.  In an arena where neither
happens, everything a turn asks for comes out as a plain value, so that a trial can be read as a
function of its dice.

* `Certain` — something that cannot fail and has no effect; it passes through `>>=`, `mapM` and a
  change of the errors that do not occur.
* `Arena.Reliable` — the evaluator answers every question, and nobody interrupts.
* `Arena.Reliable.certain_playRoll`, `certain_cubeAction`, `certain_rollValue` — then the play of a
  roll, the turn of the cube and the value of a roll are certain as well.
-/

namespace Backgammon.Rollout

open Analysis

/-! ## What cannot fail -/

section

variable {m : Type → Type} [Monad m] {ε ε' β γ : Type}

/-- **Something that cannot fail**, and has no effect. -/
def Certain (x : ExceptT ε m β) : Prop := ∃ b, x = pure b

namespace Certain

theorem of_pure (b : β) : Certain (pure b : ExceptT ε m β) := ⟨b, rfl⟩

variable [LawfulMonad m]

theorem bind {x : ExceptT ε m β} {f : β → ExceptT ε m γ} (hx : Certain x)
    (hf : ∀ b, Certain (f b)) : Certain (x >>= f) := by
  obtain ⟨b, rfl⟩ := hx
  rw [pure_bind]
  exact hf b

/-- Errors that do not occur may be put in other words. -/
theorem adapt_pure (f : ε → ε') (b : β) :
    ExceptT.adapt f (pure b : ExceptT ε m β) = pure b :=
  ExceptT.ext (map_pure (Except.mapError f) (Except.ok b : Except ε β) : _ = (pure _ : m _))

theorem adapt {x : ExceptT ε m β} (f : ε → ε') (hx : Certain x) :
    Certain (ExceptT.adapt f x) := by
  obtain ⟨b, rfl⟩ := hx
  exact ⟨b, adapt_pure f b⟩

theorem mapM {f : β → ExceptT ε m γ} (h : ∀ b, Certain (f b)) (bs : List β) :
    Certain (bs.mapM f) := by
  choose g hg using h
  have pure_f : f = fun b => pure (g b) := funext hg
  exact ⟨bs.map g, by rw [pure_f, List.mapM_pure]⟩

end Certain

end

/-! ## What a turn asks for -/

variable {δ α Board Move : Type} [Scalar α] {m : Type → Type} [Monad m]

/-- **An arena in which nothing fails**: the evaluator has an answer to every question, always the
same one, and nobody interrupts a trial. -/
structure Arena.Reliable (a : Arena m δ α Board Move) : Prop where
  answers : ∀ board s c, Certain (a.evaluator board s c)
  uninterrupted : ∀ ply, a.interrupted ply = pure false

namespace Arena.Reliable

variable [LawfulMonad m] {a : Arena m δ α Board Move} (h : a.Reliable)
include h

theorem certain_evaluate (board : Board) (s : Stakes) (c : EvalSettings α) :
    Certain (a.evaluate board s c) :=
  ((h.answers board s c).adapt _).bind fun v => .of_pure v.repaired

theorem certain_equityAfter (next : Board) (s : Stakes) (c : EvalSettings α) :
    Certain (a.equityAfter next s c) := by
  rw [equityAfter]
  cases a.game.outcome? next with
  | some o => exact .of_pure _
  | none => exact (h.certain_evaluate ..).bind fun _ => .of_pure _

theorem certain_rate (board : Board) (s : Stakes) (c : EvalSettings α) (index : Nat)
    (move : Move) : Certain (a.rate board s c index move) :=
  (h.certain_equityAfter ..).bind fun _ => .of_pure _

theorem certain_chooseMove (board : Board) (s : Stakes) (first : Move) (rest : List Move)
    (c : EvalSettings α) : Certain (a.chooseMove board s first rest c) := by
  rw [chooseMove]
  split
  · exact .of_pure _
  refine (Certain.mapM ?_ _).bind fun screened => ?_
  · exact fun x => h.certain_rate board s _ x.2 x.1
  dsimp only
  cases ranked screened with
  | nil => exact .of_pure _
  | cons best more =>
    cases a.settings.moveFilter? c.plies with
    | none => exact .of_pure _
    | some f =>
      refine (Certain.mapM ?_ _).bind fun deeper => .of_pure _
      exact fun x => h.certain_rate board s c x.index x.move

theorem certain_playRoll (board : Board) (s : Stakes) (roll : Dice) (c : EvalSettings α) :
    Certain (a.playRoll board s roll c) := by
  rw [playRoll]
  cases a.game.legalMoves board roll with
  | nil => exact .of_pure _
  | cons first rest => exact (h.certain_chooseMove ..).bind fun _ => .of_pure _

theorem certain_cubeAction (board : Board) (s : Stakes) (c : EvalSettings α) :
    Certain (a.cubeAction board s c) := by
  rw [cubeAction]
  refine (h.certain_evaluate ..).bind fun _ => (h.certain_evaluate ..).bind fun _ => ?_
  dsimp only
  split <;> exact .of_pure _

theorem certain_rollValue (t : Trial δ α Board) (roll : Dice) : Certain (a.rollValue t roll) := by
  rw [rollValue]
  refine (h.certain_playRoll ..).bind fun next => ?_
  dsimp only
  cases a.game.outcome? next with
  | some o => exact (Certain.of_pure _).bind fun _ => .of_pure _
  | none => exact (h.certain_evaluate ..).bind fun _ => .of_pure _

end Arena.Reliable

end Backgammon.Rollout
