import Backgammon.Analysis.RollLuck
import Backgammon.Proofs.Rollout.MoveChoice

/-!
# Proofs/Rollout/BestPlay — the best play of a roll, in trials and in the analysis

                 ┌── sorted ──▸ the first ──▸ next board
    successors ──┤                                │ worth
                 └── maximum ──▸ best equity  ════╧

A trial plays a roll by ranking the moves, the analysis measures its luck by a running maximum.  The one
clamps chances that make no sense, the other takes them as they are.  Both mean the same play.

* `Arena.position`, `Arena.successors` — what the analysis is told of a trial, and where a roll leads.
* `Arena.worth` — what a board is worth to the player who has just moved.
* `AnswersBy.exists_chooseMove` — without search a move of the greatest worth is played.
* `AnswersBy.exists_bestEquity` — the analysis finds the worth of the best successor.
* `bestEquity_playRoll` — this is the worth of the board that the trial goes on with.
-/

namespace Backgammon.Rollout

open RankedMove

variable {σ δ α Board Move : Type} [Scalar α]

namespace Arena

section

variable {m : Type → Type} (a : Arena m δ α Board Move)

/-- **A position of a trial**, as the luck of its rolls is measured. -/
def position (board : Board) (s : Stakes) (c : EvalSettings α) : Analysis.Position m α Board Move :=
  ⟨a.game, a.evaluator, a.met, board, s, c⟩

/-- **Where a roll may lead**: to a board for every legal move, or to the board that is passed on. -/
def successors (board : Board) (roll : Dice) : List Board :=
  match a.game.legalMoves board roll with
  | [] => [a.game.pass board]
  | first :: rest => (first :: rest).map (a.game.play board)

/-- **The worth of a board** for the player who has just moved, by the result of a finished game or the
answer of the evaluator. -/
def worth (answers : Board → Stakes → EvalSettings α → Equities α) (s : Stakes) (c : EvalSettings α)
    (next : Board) : α :=
  let s := s.swapTurn
  match a.game.outcome? next with
  | some o => -a.met.valueEquity s (a.met.outcomeValue s o)
  | none => -a.met.normalized s (answers next s c) c.cubeful

end

/-- **The evaluator answers**, and what it answers does not depend on the world. -/
def AnswersBy (a : Arena (StateM σ) δ α Board Move)
    (answers : Board → Stakes → EvalSettings α → Equities α) : Prop :=
  ∀ board s c w, ∃ w', Yields (a.evaluator board s c) w (answers board s c) w'

namespace AnswersBy

variable {a : Arena (StateM σ) δ α Board Move}
  {answers : Board → Stakes → EvalSettings α → Equities α} (answer : a.AnswersBy answers)
  {board : Board} {s : Stakes} {c : EvalSettings α}
include answer

theorem exists_equityAfter (next : Board) (w : σ) :
    ∃ w', Yields (a.equityAfter next s c) w (a.worth answers s c next) w' := by
  rw [Arena.equityAfter, worth]
  cases ended : a.game.outcome? next with
  | some o => exact ⟨w, Yields.pure_iff.2 ⟨rfl, rfl⟩⟩
  | none =>
    obtain ⟨w', reply⟩ := answer next s.swapTurn c w
    have evaluated : Yields (a.evaluate next s.swapTurn c) w (answers next s.swapTurn c).repaired w' :=
      Yields.bind_iff.2 ⟨_, w', Yields.adapt_iff.2 reply, Yields.pure_iff.2 ⟨rfl, rfl⟩⟩
    refine ⟨w', Yields.bind_iff.2 ⟨_, w', evaluated, Yields.pure_iff.2 ⟨?_, rfl⟩⟩⟩
    rw [normalized_repaired]

theorem exists_equityOf (next : Board) (w : σ) :
    ∃ w', Yields ((a.position board s c).equityOf next) w (a.worth answers s c next) w' := by
  rw [Analysis.Position.equityOf, worth]
  simp only [position]
  cases ended : a.game.outcome? next with
  | some o => exact ⟨w, Yields.pure_iff.2 ⟨rfl, rfl⟩⟩
  | none =>
    obtain ⟨w', reply⟩ := answer next s.swapTurn c w
    exact ⟨w', Yields.bind_iff.2 ⟨_, w', reply, Yields.pure_iff.2 ⟨rfl, rfl⟩⟩⟩

variable [Scalar.LawfulOrder α] {first : Move} {rest : List Move}

/-- **Without search a move of the greatest worth is played.** -/
theorem exists_chooseMove (shallow : c.plies = 0)
    (numbers : ∀ move ∈ first :: rest,
      Scalar.isNaN (a.worth answers s c (a.game.play board move)) = false) (w : σ) :
    ∃ i move w', Yields (a.chooseMove board s first rest c) w (i, move) w' ∧ move ∈ first :: rest ∧
      ∀ other ∈ first :: rest,
        a.worth answers s c (a.game.play board other) ≤ a.worth answers s c (a.game.play board move) := by
  by_cases several : rest = []
  · subst several
    refine ⟨0, first, w, Yields.pure_iff.2 ⟨rfl, rfl⟩, List.mem_singleton_self _, ?_⟩
    exact List.forall_mem_singleton.2 (Scalar.le_refl (numbers first List.mem_cons_self))
  let rated (e : Move × Nat) : RankedMove α Move :=
    ⟨e.2, e.1, a.worth answers s c (a.game.play board e.1)⟩
  have same : { c with plies := 0 } = c := by rw [← shallow]
  obtain ⟨w', screen⟩ : ∃ w', Yields (a.lookAt board s { c with plies := 0 } (first :: rest).zipIdx) w
      ((first :: rest).zipIdx.map rated) w' := by
    rw [same]
    refine Yields.exists_mapM_map (fun (move, i) _ w => ?_) w
    obtain ⟨w', equity⟩ := answer.exists_equityAfter (a.game.play board move) w
    exact ⟨w', Yields.bind_iff.2 ⟨_, w', equity, Yields.pure_iff.2 ⟨rfl, rfl⟩⟩⟩
  have numbered : ((first :: rest).zipIdx.map rated).map entry = (first :: rest).zipIdx := by
    rw [List.map_map]
    exact List.map_id _
  have equities : ∀ x ∈ (first :: rest).zipIdx.map rated, Scalar.isNaN x.equity = false :=
    List.forall_mem_map.2 fun e he => numbers e.1 (List.fst_mem_of_mem_zipIdx he)
  obtain ⟨best, others, order, ranking⟩ := exists_ranked numbered equities
  obtain ⟨⟨move, i⟩, he, rfl⟩ := List.mem_map.1 (ranking.perm.mem_iff.1 List.mem_cons_self)
  have unfiltered : a.settings.moveFilter? c.plies = none := by rw [shallow]; rfl
  refine ⟨i, move, w', yields_chooseMove_ranked several screen order unfiltered,
    List.fst_mem_of_mem_zipIdx he, fun other ho => ?_⟩
  obtain ⟨j, hj⟩ := List.mem_iff_getElem?.1 ho
  have listed := List.mk_mem_zipIdx_iff_getElem?.2 hj
  exact ranking.greatest equities (rated (other, j)) (List.mem_map_of_mem listed)

variable {roll : Dice}

/-- **A trial goes on with a successor of the greatest worth.** -/
theorem exists_playRoll (shallow : c.plies = 0)
    (numbers : ∀ next ∈ a.successors board roll, Scalar.isNaN (a.worth answers s c next) = false)
    (w : σ) :
    ∃ next w', Yields (a.playRoll board s roll c) w next w' ∧ next ∈ a.successors board roll ∧
      ∀ other ∈ a.successors board roll, a.worth answers s c other ≤ a.worth answers s c next := by
  rw [Arena.playRoll]
  rw [successors] at numbers ⊢
  cases legal : a.game.legalMoves board roll with
  | nil =>
    rw [legal] at numbers
    refine ⟨_, w, Yields.pure_iff.2 ⟨rfl, rfl⟩, List.mem_singleton_self _, ?_⟩
    exact List.forall_mem_singleton.2 (Scalar.le_refl (numbers _ (List.mem_singleton_self _)))
  | cons first rest =>
    rw [legal] at numbers
    obtain ⟨i, move, w', chosen, mem, greatest⟩ :=
      answer.exists_chooseMove shallow (List.forall_mem_map.1 numbers) w
    exact ⟨_, w', Yields.bind_iff.2 ⟨_, w', chosen, Yields.pure_iff.2 ⟨rfl, rfl⟩⟩,
      List.mem_map_of_mem mem, List.forall_mem_map.2 greatest⟩

/-- **The analysis finds the worth of a successor**, and none is worth more. -/
theorem exists_bestEquity
    (numbers : ∀ next ∈ a.successors board roll, Scalar.isNaN (a.worth answers s c next) = false)
    (w : σ) :
    ∃ x w', Yields ((a.position board s c).bestEquity roll) w x w' ∧
      x ∈ (a.successors board roll).map (a.worth answers s c) ∧
      ∀ next ∈ a.successors board roll, a.worth answers s c next ≤ x := by
  have legal_eq : (a.position board s c).game.legalMoves (a.position board s c).board roll =
    a.game.legalMoves board roll := rfl
  rw [Analysis.Position.bestEquity, legal_eq]
  rw [successors] at numbers ⊢
  cases legal : a.game.legalMoves board roll with
  | nil =>
    rw [legal] at numbers
    obtain ⟨w', equity⟩ := answer.exists_equityOf (s := s) (c := c) (a.game.pass board) w
    refine ⟨_, w', equity, List.mem_singleton_self _, ?_⟩
    exact List.forall_mem_singleton.2 (Scalar.le_refl (numbers _ (List.mem_singleton_self _)))
  | cons first rest =>
    rw [legal] at numbers
    let worthOf (move : Move) : α := a.worth answers s c (a.game.play board move)
    obtain ⟨w₁, equity⟩ := answer.exists_equityOf (s := s) (c := c) (a.game.play board first) w
    obtain ⟨w₂, others⟩ : ∃ w₂, Yields (rest.mapM fun move =>
        (a.position board s c).equityOf (a.game.play board move)) w₁ (rest.map worthOf) w₂ :=
      Yields.exists_mapM_map (fun move _ => answer.exists_equityOf (a.game.play board move)) w₁
    have worths : ∀ x ∈ worthOf first :: rest.map worthOf, Scalar.isNaN x = false := by
      rw [← List.map_cons]
      exact List.forall_mem_map.2 fun move hm => numbers _ (List.mem_map_of_mem hm)
    obtain ⟨mem, upper⟩ := Scalar.maximum_spec (worthOf first) (rest.map worthOf) worths
    refine ⟨Scalar.maximum (worthOf first) (rest.map worthOf), w₂, Yields.bind_iff.2 ⟨_, w₁, equity,
      Yields.bind_iff.2 ⟨_, w₂, others, Yields.pure_iff.2 ⟨rfl, rfl⟩⟩⟩, ?_, ?_⟩
    · rwa [List.map_map]
    · rw [← List.map_cons] at upper
      exact List.forall_mem_map.2 fun move hm => upper _ (List.mem_map_of_mem hm)

end AnswersBy

end Arena

/-- **The analysis and the trial agree on the best play of a roll.** -/
theorem bestEquity_playRoll [Scalar.LawfulOrder α] {a : Arena (StateM σ) δ α Board Move}
    {answers : Board → Stakes → EvalSettings α → Equities α} (answer : a.AnswersBy answers)
    {board : Board} {s : Stakes} {c : EvalSettings α} {roll : Dice} (shallow : c.plies = 0)
    (numbers : ∀ next ∈ a.successors board roll, Scalar.isNaN (a.worth answers s c next) = false)
    (w u : σ) :
    ∃ next w' x u', Yields (a.playRoll board s roll c) w next w' ∧
      Yields ((a.position board s c).bestEquity roll) u x u' ∧
      (x == a.worth answers s c next) = true ∧
      (¬(x == 0) = true → x = a.worth answers s c next) ∧
      next ∈ a.successors board roll ∧
      ∀ other ∈ a.successors board roll, a.worth answers s c other ≤ a.worth answers s c next ∧
        ∀ v, ∃ v', Yields (a.equityAfter other s c) v (a.worth answers s c other) v' := by
  obtain ⟨next, w', played, mem, greatest⟩ := answer.exists_playRoll shallow numbers w
  obtain ⟨x, u', best, among, upper⟩ := answer.exists_bestEquity numbers u
  obtain ⟨other, ho, rfl⟩ := List.mem_map.1 among
  have equal := (Scalar.LawfulOrder.beq_iff (numbers other ho) (numbers next mem)).2
    ⟨greatest other ho, upper next mem⟩
  have equal' := (Scalar.LawfulOrder.beq_iff (numbers next mem) (numbers other ho)).2
    ⟨upper next mem, greatest other ho⟩
  exact ⟨next, w', _, u', played, best, equal,
    fun nonzero => (Scalar.LawfulOrder.eq_of_beq equal' nonzero).symm, mem,
    fun other ho => ⟨greatest other ho, answer.exists_equityAfter other⟩⟩

/-! ### Chances that make no sense -/

/-- A game in which a roll takes one, two or three off the board, and whoever takes the last off loses.
The evaluator, which counts how often it is asked, gives the player on roll more than the certainty of a
win, and in a match a chance that falls with every one on the board. -/
def boasting : Arena (StateM Nat) Unit Rat Nat Nat where
  game := {
    legalMoves := fun left _ => [1, 2, 3].filter (· ≤ left)
    play := fun left off => left - off
    pass := id
    outcome? := fun left => if left = 0 then some ⟨.onRoll, .single⟩ else none }
  evaluator left _ _ := do
    modify (· + 1)
    return ⟨3 / 2, 0, 0, 0, 0, 2, 9 / 20 - left / 80⟩
  met := ⟨fun away opponentAway _ => 1 / 2 + ((opponentAway - away : Int) : Rat) / 40⟩
  settings := .standard
  roll _ := pure (⟨1, 2⟩, ())
  interrupted _ := pure false

/-- With three on the board one is taken off, and the analysis finds the worth of that: two are better to
leave than one, and to end the game is to lose it. -/
theorem boasting_three :
    let s : Stakes := .matchPlay 9 ⟨2, 0⟩ .zero
    let answers (left : Nat) (_ : Stakes) (_ : EvalSettings Rat) : Equities Rat :=
      ⟨3 / 2, 0, 0, 0, 0, 2, 9 / 20 - left / 80⟩
    ∃ w', Yields (boasting.playRoll 3 s ⟨2, 1⟩ .static) 0 2 w' ∧
      Yields ((boasting.position 3 s .static).bestEquity ⟨2, 1⟩) 0 1 2 ∧
      boasting.worth answers s .static 2 = 1 := by
  intro s answers
  have answer : boasting.AnswersBy answers := fun _ _ _ w => ⟨w + 1, rfl⟩
  have best : Yields ((boasting.position 3 s .static).bestEquity ⟨2, 1⟩) 0 1 2 := by decide +kernel
  obtain ⟨next, w', x, u', played, found, -, same, mem, -⟩ :=
    bestEquity_playRoll (s := s) (c := .static) answer rfl (fun _ _ => rfl) 0 0
  obtain ⟨one, rfl⟩ := Prod.mk.inj (found.symm.trans best)
  obtain rfl := Except.ok.inj one
  have worth_next := (same (by decide +kernel)).symm
  have only : ∀ left ∈ boasting.successors 3 ⟨2, 1⟩, boasting.worth answers s .static left = 1 →
    left = 2 := by decide +kernel
  obtain rfl := only next mem worth_next
  exact ⟨w', played, best, worth_next⟩

end Backgammon.Rollout
