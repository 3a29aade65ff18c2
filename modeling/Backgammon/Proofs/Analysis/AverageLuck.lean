import Backgammon.Analysis.RollLuck
import Backgammon.Proofs.Rollout.VarianceReduction

/-!
# Proofs/Analysis/AverageLuck — luck averages to zero, or cannot be told

    possible rolls ──▸ successors ──▸ those to be evaluated ──▸ best equity of each roll
                                              │                        │
                                            fault                roll − average

The luck of a roll is taken from the best equities of all rolls, so it fails when any board that one of
them may lead to cannot be evaluated, whichever roll has been thrown.  Apart from that it fails only for
what is no roll.

* `Position.successors`, `Position.needed` — where a roll may lead, and what the evaluator is asked about.
* `Position.Asks` — up to its value, a computation is asking about some boards in a row.
* `Position.asks_rollValues` — telling luck is asking about the boards that are needed.
* `Throws` — a run ends with an error; `Steady` — a computation comes to one value in every world.
* `Position.Replies` — the evaluator replies alike in every world, be it with a fault.
* `luck_averages_out` — the sum over all rolls, the order of the dice, and when there is no luck to tell.
-/

namespace Backgammon

namespace Rollout

/-! ## Runs that fail, and runs that do not depend on the world -/

section

variable {σ ε ε' β γ : Type} {x : ExceptT ε (StateM σ) β} {w w' : σ}

/-- **A run ends with an error** and leaves the world in the given state. -/
def Throws (x : ExceptT ε (StateM σ) β) (w : σ) (e : ε) (w' : σ) : Prop :=
  x.run.run w = (.error e, w')

theorem yields_or_throws (x : ExceptT ε (StateM σ) β) (w : σ) :
    (∃ b w', Yields x w b w') ∨ ∃ e w', Throws x w e w' := by
  rcases h : x.run.run w with ⟨e | b, w'⟩
  · exact .inr ⟨e, w', h⟩
  · exact .inl ⟨b, w', h⟩

namespace Throws

variable {e : ε}

theorem bind_iff {f : β → ExceptT ε (StateM σ) γ} :
    Throws (x >>= f) w e w' ↔
      Throws x w e w' ∨ ∃ b w₁, Yields x w b w₁ ∧ Throws (f b) w₁ e w' := by
  constructor
  · intro h
    rcases hx : x.run.run w with ⟨e₁ | b, w₁⟩
    · rw [Throws, ExceptT.run_bind, StateT.run_bind, hx] at h
      cases h
      exact .inl hx
    · rw [Throws, Yields.run_bind hx] at h
      exact .inr ⟨b, w₁, hx, h⟩
  · rintro (h | ⟨b, w₁, hx, hf⟩)
    · rw [Throws, ExceptT.run_bind, StateT.run_bind, h]
      rfl
    · exact (Yields.run_bind hx).trans hf

theorem adapt_iff {f : ε → ε'} {e' : ε'} :
    Throws (ExceptT.adapt f x) w e' w' ↔ ∃ e, Throws x w e w' ∧ f e = e' := by
  have run_adapt : (ExceptT.adapt f x).run.run w =
    (Except.mapError f (x.run.run w).1, (x.run.run w).2) := rfl
  constructor
  · intro h
    rw [Throws, run_adapt] at h
    rcases hx : x.run.run w with ⟨e | b, w₁⟩
    · rw [hx] at h
      cases h
      exact ⟨e, hx, rfl⟩
    · rw [hx] at h
      cases h
  · rintro ⟨e, h, rfl⟩
    rw [Throws, run_adapt, h]
    rfl

theorem not_pure {b : β} : ¬Throws (pure b : ExceptT ε (StateM σ) β) w e w' := nofun

end Throws

/-- **A computation comes to the same value** in every world. -/
def Steady (x : ExceptT ε (StateM σ) β) (b : β) : Prop := ∀ w, ∃ w', Yields x w b w'

theorem Steady.pure (b : β) : Steady (pure b : ExceptT ε (StateM σ) β) b :=
  fun w => ⟨w, Yields.pure_iff.2 ⟨rfl, rfl⟩⟩

theorem Steady.bind {f : β → ExceptT ε (StateM σ) γ} {b : β} {c : γ} (hx : Steady x b)
    (hf : Steady (f b) c) : Steady (x >>= f) c := by
  intro w
  obtain ⟨w₁, first⟩ := hx w
  obtain ⟨w', second⟩ := hf w₁
  exact ⟨w', Yields.bind_iff.2 ⟨b, w₁, first, second⟩⟩

theorem Steady.mapM {f : β → ExceptT ε (StateM σ) γ} {g : β → γ}
    (each : ∀ b, Steady (f b) (g b)) (bs : List β) : Steady (bs.mapM f) (bs.map g) :=
  Yields.exists_mapM_map fun b _ => each b

end

end Rollout

/-! ## Rolls and their faces -/

namespace Dice

theorem mem_distinct {d : Dice} :
    d ∈ distinct ↔ 1 ≤ d.first ∧ d.first ≤ d.second ∧ d.second ≤ 6 := by
  obtain ⟨a, b⟩ := d
  simp only [distinct, List.mem_flatMap, List.mem_map, List.mem_range'_1, mk.injEq]
  constructor
  · rintro ⟨a, ha, b, hb, rfl, rfl⟩
    omega
  · rintro ⟨low, order, high⟩
    exact ⟨a, by omega, b, by omega, rfl, rfl⟩

/-- The two dice have no order. -/
theorem sameFaces_swap (d e : Dice) : d.sameFaces e.swap = d.sameFaces e :=
  Bool.or_comm (d == e.swap) (d == e)

theorem sameFaces_iff {d e : Dice} : d.sameFaces e = true ↔ d = e ∨ d = e.swap := by
  simp only [sameFaces, Bool.or_eq_true, beq_iff_eq]

end Dice

namespace Analysis

open Rollout

/-- The roll can come, at the start of a game or later on. -/
def Possible (firstRoll : Bool) (dice : Dice) : Prop :=
  dice.isValid = true ∧ (firstRoll = true → dice.isDouble = false)

theorem possible_swap {firstRoll : Bool} {dice : Dice} :
    Possible firstRoll dice.swap ↔ Possible firstRoll dice := by
  have valid : dice.swap.isValid = dice.isValid := Bool.and_comm ..
  have double : dice.swap.isDouble = dice.isDouble := Bool.beq_comm
  rw [Possible, valid, double, Possible]

theorem not_possible_iff {firstRoll : Bool} {dice : Dice} :
    ¬Possible firstRoll dice ↔
      dice.isValid = false ∨ firstRoll = true ∧ dice.isDouble = true := by
  rw [Possible, not_and_or, Bool.not_eq_true, Classical.not_imp, Bool.not_eq_false]

namespace Position

theorem mem_possibleRolls {firstRoll : Bool} {d : Dice} :
    d ∈ possibleRolls firstRoll ↔ Possible firstRoll d ∧ d.first ≤ d.second := by
  have valid : d.isValid = true ∧ d.first ≤ d.second ↔ d ∈ Dice.distinct := by
    simp only [Dice.mem_distinct, Dice.isValid, Bool.and_eq_true, decide_eq_true_eq]
    omega
  cases firstRoll with
  | false => simp [possibleRolls, Possible, ← valid]
  | true => simp [possibleRolls, Possible, Dice.distinctNonDoubles, ← valid, and_right_comm]

example : (possibleRolls false).length = 21 ∧ (possibleRolls true).length = 15 := by decide

/-- **A roll that can come has the faces of a distinct one**, and no other has. -/
theorem exists_sameFaces_iff {firstRoll : Bool} {dice : Dice} :
    (∃ d ∈ possibleRolls firstRoll, d.sameFaces dice = true) ↔ Possible firstRoll dice := by
  constructor
  · rintro ⟨d, mem, same⟩
    have possible := (mem_possibleRolls.1 mem).1
    obtain rfl | rfl := Dice.sameFaces_iff.1 same
    · exact possible
    · exact possible_swap.1 possible
  · intro possible
    rcases Nat.le_total dice.first dice.second with ordered | ordered
    · exact ⟨dice, mem_possibleRolls.2 ⟨possible, ordered⟩, Dice.sameFaces_iff.2 (.inl rfl)⟩
    · exact ⟨dice.swap, mem_possibleRolls.2 ⟨possible_swap.2 possible, ordered⟩,
        Dice.sameFaces_iff.2 (.inr rfl)⟩

/-- No two of the rolls a player may have show the same faces. -/
theorem find?_possibleRolls {firstRoll : Bool} {d : Dice} (mem : d ∈ possibleRolls firstRoll) :
    (possibleRolls firstRoll).find? (·.sameFaces d) = some d := by
  revert mem d firstRoll
  decide

theorem totalWeight_possibleRolls (firstRoll : Bool) :
    Dice.totalWeight (possibleRolls firstRoll) ≠ 0 := by
  revert firstRoll
  decide

/-! ## What the evaluator is asked -/

section

variable {m : Type → Type} {α β γ Board Move : Type} (q : Position m α Board Move)

/-- **Where a roll may lead**: to a board for every legal move, or to the board that is passed on. -/
def successors (dice : Dice) : List Board :=
  match q.game.legalMoves q.board dice with
  | [] => [q.game.pass q.board]
  | first :: rest => (first :: rest).map (q.game.play q.board)

/-- Of these boards, the ones on which the game goes on. -/
def unfinished (boards : List Board) : List Board :=
  boards.filter fun next => (q.game.outcome? next).isNone

theorem unfinished_eq_flatMap (boards : List Board) :
    q.unfinished boards = boards.flatMap fun next => q.unfinished [next] := by
  simp only [unfinished]
  rw [← List.filter_flatMap, List.flatMap_singleton']

/-- **The boards to be evaluated** before the luck of a roll is told. -/
def needed (firstRoll : Bool) : List Board :=
  (possibleRolls firstRoll).flatMap fun d => q.unfinished (q.successors d)

variable [Monad m]

/-- Asking the evaluator about some boards in a row, whatever it answers. -/
def askAll (boards : List Board) : ExceptT Fault m Unit :=
  forM boards fun next => do
    let _ ← q.evaluator next q.stakes.swapTurn q.settings

/-- **Up to its value, a computation is asking** about some boards in a row. -/
def Asks (boards : List Board) (x : ExceptT Fault m β) : Prop :=
  (do let _ ← x) = q.askAll boards

/-- The best equities of all rolls that a player may have. -/
def rollValues [Scalar α] (firstRoll : Bool) : ExceptT Fault m (List (Dice × α)) :=
  (possibleRolls firstRoll).mapM fun d => do return (d, ← q.bestEquity d)

variable [LawfulMonad m] {q} {l l' : List Board}

theorem Asks.pure (b : β) : q.Asks [] (pure b) := pure_bind ..

theorem Asks.bind {x : ExceptT Fault m β} {f : β → ExceptT Fault m γ} (hx : q.Asks l x)
    (hf : ∀ b, q.Asks l' (f b)) : q.Asks (l ++ l') (x >>= f) := by
  have hf (b : β) : (do let _ ← f b) = q.askAll l' := hf b
  have hx : (do let _ ← x) = q.askAll l := hx
  rw [Asks, bind_assoc, askAll, List.forM_append]
  simp only [hf]
  rw [← askAll, ← askAll, ← hx, bind_assoc]
  simp only [pure_bind]

/-- What is made of the value takes no asking. -/
theorem Asks.bind_pure {x : ExceptT Fault m β} (hx : q.Asks l x) (f : β → γ) :
    q.Asks l (x >>= fun b => Pure.pure (f b)) := by
  have asks := hx.bind fun b => Asks.pure (f b)
  rwa [List.append_nil] at asks

theorem Asks.mapM {f : β → ExceptT Fault m γ} {g : β → List Board} (each : ∀ b, q.Asks (g b) (f b))
    (bs : List β) : q.Asks (bs.flatMap g) (bs.mapM f) := by
  induction bs with
  | nil => exact .pure []
  | cons b bs ih =>
    rw [List.mapM_cons, List.flatMap_cons]
    exact (each b).bind fun c => ih.bind_pure (c :: ·)

theorem askAll_cons (next : Board) (boards : List Board) :
    q.askAll (next :: boards) = (do
      let _ ← q.evaluator next q.stakes.swapTurn q.settings
      q.askAll boards) := by
  rw [askAll, List.forM_cons, bind_assoc]
  simp only [pure_bind]
  rfl

theorem asks_evaluator (next : Board) :
    q.Asks [next] (q.evaluator next q.stakes.swapTurn q.settings) :=
  (askAll_cons next []).symm

variable [Scalar α]

theorem asks_equityOf (next : Board) : q.Asks (q.unfinished [next]) (q.equityOf next) := by
  rw [equityOf, unfinished]
  cases ended : q.game.outcome? next with
  | some o =>
    rw [List.filter_cons_of_neg (by simp [ended])]
    exact .pure _
  | none =>
    rw [List.filter_cons_of_pos (by simp [ended])]
    exact (asks_evaluator next).bind_pure fun v => -q.met.normalized _ v q.settings.cubeful

theorem asks_bestEquity (dice : Dice) :
    q.Asks (q.unfinished (q.successors dice)) (q.bestEquity dice) := by
  rw [bestEquity, successors]
  cases q.game.legalMoves q.board dice with
  | nil => exact asks_equityOf _
  | cons first rest =>
    have others := Asks.mapM (fun move => asks_equityOf (q := q) (q.game.play q.board move)) rest
    simp only
    rw [unfinished_eq_flatMap, List.map_cons, List.flatMap_cons, List.flatMap_map]
    exact (asks_equityOf _).bind fun best => others.bind_pure (Scalar.maximum best)

/-- **The values of all rolls are a matter of asking** about the boards that these may lead to. -/
theorem asks_rollValues (firstRoll : Bool) :
    q.Asks (q.needed firstRoll) (q.rollValues firstRoll) :=
  .mapM (fun d => (asks_bestEquity d).bind_pure (d, ·)) _

end

/-! ## The luck among values -/

/-- The luck of a roll, given the values of rolls. -/
def luckAmong (values : List (Dice × Rat)) (dice : Dice) : Option Rat :=
  (values.find? fun (d, _) => d.sameFaces dice).map fun (_, equity) => equity - meanOver values

theorem luckAmong_swap (values : List (Dice × Rat)) (dice : Dice) :
    luckAmong values dice.swap = luckAmong values dice := by
  simp only [luckAmong, Dice.sameFaces_swap]

theorem luckAmong_eq_none_iff {values : List (Dice × Rat)} {firstRoll : Bool} {dice : Dice}
    (rolls : values.map Prod.fst = possibleRolls firstRoll) :
    luckAmong values dice = none ↔ ¬Possible firstRoll dice := by
  rw [luckAmong, Option.map_eq_none_iff, List.find?_eq_none, ← exists_sameFaces_iff, ← rolls]
  simp only [List.mem_map, exists_exists_and_eq_and, not_exists, not_and]

theorem meanOver_eq (values : List (Dice × Rat)) :
    meanOver values = (values.map fun (d, x) => x * (d.weight : Rat)).sum /
      (Dice.totalWeight (values.map Prod.fst) : Rat) := by
  rw [meanOver, Dice.cast_totalWeight, List.map_map, List.sum_eq_foldl, List.sum_eq_foldl,
    List.foldl_map, List.foldl_map]
  rfl

/-- **Luck sums to zero** over the rolls by whose values it is measured. -/
theorem sum_luckAmong (firstRoll : Bool) (equity : Dice → Rat) :
    ((possibleRolls firstRoll).map fun d => (d.weight : Rat) *
      (luckAmong ((possibleRolls firstRoll).map fun d => (d, equity d)) d).getD 0).sum = 0 := by
  let shown := possibleRolls firstRoll
  let values := shown.map fun d => (d, equity d)
  let mean := meanOver values
  -- no two of the rolls show the same faces, so the value found is the roll's own
  have luck : ∀ d ∈ shown, (luckAmong values d).getD 0 = equity d - mean := by
    intro d mem
    rw [luckAmong, List.find?_map, Function.comp_def, find?_possibleRolls mem]
    rfl
  have pos : (Dice.totalWeight shown : Rat) ≠ 0 :=
    Nat.cast_ne_zero.2 (totalWeight_possibleRolls firstRoll)
  have mean_eq : mean = (shown.map fun d => equity d * (d.weight : Rat)).sum /
      (Dice.totalWeight shown : Rat) := by
    rw [show mean = meanOver values from rfl, meanOver_eq, List.map_map, List.map_map]
    simp only [Function.comp_def, List.map_id']
  calc (shown.map fun d => (d.weight : Rat) * (luckAmong values d).getD 0).sum
      = (shown.map fun d => equity d * (d.weight : Rat) - mean * (d.weight : Rat)).sum := by
        refine congrArg List.sum (List.map_congr_left fun d mem => ?_)
        rw [luck d mem, mul_comm, sub_mul]
    _ = (shown.map fun d => equity d * (d.weight : Rat)).sum - mean * Dice.totalWeight shown := by
        rw [sum_map_sub, List.sum_map_mul_left, Dice.cast_totalWeight]
    _ = 0 := by rw [mean_eq, div_mul_cancel₀ _ pos, sub_self]

/-! ## When luck can be told -/

variable {σ Board Move : Type} {q : Position (StateM σ) Rat Board Move} {firstRoll : Bool}
  {dice : Dice} {w w' : σ}

/-- A computation that is a matter of asking fails just as the asking does. -/
theorem Asks.throws_iff {β : Type} {x : ExceptT Fault (StateM σ) β} {boards : List Board}
    (h : q.Asks boards x) {fault : Fault} :
    Throws x w fault w' ↔ Throws (q.askAll boards) w fault w' := by
  rw [← h, Throws.bind_iff]
  simp only [Throws.not_pure, and_false, exists_false, or_false]

theorem rollLuck_eq (dice : Dice) :
    q.rollLuck dice firstRoll = (do
      let values ← ExceptT.adapt LuckError.evaluation (q.rollValues firstRoll)
      match luckAmong values dice with
      | some luck => return luck
      | none => throw (.illegalRoll dice)) := by
  refine bind_congr fun values => ?_
  rw [luckAmong]
  cases values.find? fun (d, _) => d.sameFaces dice <;> rfl

theorem rolls_of_yields {values : List (Dice × Rat)}
    (h : Yields (q.rollValues firstRoll) w values w') :
    values.map Prod.fst = possibleRolls firstRoll := by
  refine (Yields.forall_of_mapM (g := Prod.fst) (Q := fun _ => True) (fun d w c w' valued => ?_) h).1
  obtain ⟨x, w₁, -, valued⟩ := Yields.bind_iff.1 valued
  obtain ⟨rfl, -⟩ := Yields.pure_iff.1 valued
  exact ⟨rfl, trivial⟩

theorem yields_rollLuck_iff {luck : Rat} :
    Yields (q.rollLuck dice firstRoll) w luck w' ↔
      ∃ values, Yields (q.rollValues firstRoll) w values w' ∧ luckAmong values dice = some luck := by
  rw [rollLuck_eq, Yields.bind_iff]
  constructor
  · rintro ⟨values, w₁, valued, h⟩
    cases among : luckAmong values dice with
    | none =>
      rw [among] at h
      cases h
    | some luck =>
      rw [among] at h
      obtain ⟨rfl, rfl⟩ := Yields.pure_iff.1 h
      exact ⟨values, Yields.adapt_iff.1 valued, among⟩
  · rintro ⟨values, valued, among⟩
    exact ⟨values, w', Yields.adapt_iff.2 valued, by rw [among]; exact Yields.pure_iff.2 ⟨rfl, rfl⟩⟩

theorem throws_rollLuck_iff {e : LuckError} :
    Throws (q.rollLuck dice firstRoll) w e w' ↔
      (∃ fault, Throws (q.rollValues firstRoll) w fault w' ∧ LuckError.evaluation fault = e) ∨
        ∃ values, Yields (q.rollValues firstRoll) w values w' ∧ luckAmong values dice = none ∧
          LuckError.illegalRoll dice = e := by
  rw [rollLuck_eq, Throws.bind_iff, Throws.adapt_iff]
  refine or_congr_right ?_
  constructor
  · rintro ⟨values, w₁, valued, h⟩
    cases among : luckAmong values dice with
    | some luck =>
      rw [among] at h
      cases h
    | none =>
      rw [among] at h
      cases h
      exact ⟨values, Yields.adapt_iff.1 valued, among, rfl⟩
  · rintro ⟨values, valued, among, rfl⟩
    exact ⟨values, w', Yields.adapt_iff.2 valued, by rw [among]; rfl⟩

/-! ## Evaluators that answer alike in every world -/

/-- **The evaluator replies** in every world as it is said to, about the boards after a play. -/
def Replies (q : Position (StateM σ) Rat Board Move)
    (reply : Board → Except Fault (Equities Rat)) : Prop :=
  ∀ next w, ∃ w', (q.evaluator next q.stakes.swapTurn q.settings).run.run w = (reply next, w')

namespace Replies

variable {reply : Board → Except Fault (Equities Rat)} {answer : Board → Equities Rat}

/-- Where the evaluator always answers, a board has an equity. -/
theorem exists_equityOf (h : q.Replies fun next => .ok (answer next)) (next : Board) :
    ∃ x, Steady (q.equityOf next) x := by
  rw [equityOf]
  cases q.game.outcome? next with
  | some o => exact ⟨_, .pure _⟩
  | none => exact ⟨_, .bind (h next) (.pure _)⟩

/-- Where the evaluator always answers, a roll has a best equity. -/
theorem exists_bestEquity (h : q.Replies fun next => .ok (answer next)) (dice : Dice) :
    ∃ x, Steady (q.bestEquity dice) x := by
  choose equity steady using h.exists_equityOf
  rw [bestEquity]
  cases q.game.legalMoves q.board dice with
  | nil => exact ⟨_, steady _⟩
  | cons first rest =>
    exact ⟨_, (steady _).bind ((Steady.mapM (fun move => steady (q.game.play q.board move)) rest).bind
      (.pure _))⟩

/-- **Asking about some boards fails** when the reply about one of them is a fault. -/
theorem throws_askAll_iff (h : q.Replies reply) (boards : List Board) (w : σ) :
    (∃ fault w', Throws (q.askAll boards) w fault w') ↔
      ∃ next ∈ boards, ∃ fault, reply next = .error fault := by
  -- on the boards, from whatever world the answers before have left
  induction boards generalizing w with
  | nil => exact ⟨fun ⟨_, _, failed⟩ => (Throws.not_pure failed).elim, nofun⟩
  | cons next boards ih =>
    obtain ⟨w₁, run_eq⟩ := h next w
    rw [askAll_cons]
    cases replied : reply next with
    | error fault =>
      rw [replied] at run_eq
      exact ⟨fun _ => ⟨next, List.mem_cons_self, fault, replied⟩,
        fun _ => ⟨fault, w₁, Throws.bind_iff.2 (.inl run_eq)⟩⟩
    | ok v =>
      rw [replied] at run_eq
      have later : (do
          let _ ← q.evaluator next q.stakes.swapTurn q.settings
          q.askAll boards).run.run w = (q.askAll boards).run.run w₁ := Yields.run_bind run_eq
      simp only [Throws, later, List.exists_mem_cons_iff, replied, reduceCtorEq, exists_false,
        false_or]
      exact ih w₁

/-- Asking for the luck of a roll fails when the reply is a fault about a board that some roll may lead
to. -/
theorem throws_askAll_needed_iff (h : q.Replies reply) (firstRoll : Bool) (w : σ) :
    (∃ fault w', Throws (q.askAll (q.needed firstRoll)) w fault w') ↔
      ∃ d ∈ possibleRolls firstRoll, ∃ next ∈ q.successors d, q.game.outcome? next = none ∧
        ∃ fault, reply next = .error fault := by
  rw [h.throws_askAll_iff]
  simp only [needed, unfinished, List.mem_flatMap, List.mem_filter, Option.isNone_iff_eq_none]
  constructor
  · rintro ⟨next, ⟨d, possible, leads, running⟩, failed⟩
    exact ⟨d, possible, next, leads, running, failed⟩
  · rintro ⟨d, possible, next, leads, running, failed⟩
    exact ⟨next, ⟨d, possible, leads, running⟩, failed⟩

/-- Where the evaluator always answers, every roll that can come has its luck. -/
theorem exists_luck (h : q.Replies fun next => .ok (answer next)) (firstRoll : Bool) :
    ∃ luck : Dice → Rat,
      (∀ dice, Possible firstRoll dice → Steady (q.rollLuck dice firstRoll) (luck dice)) ∧
      (∀ dice, luck dice.swap = luck dice) ∧
      ((possibleRolls firstRoll).map fun d => (d.weight : Rat) * luck d).sum = 0 := by
  choose equity steady using h.exists_bestEquity
  let values := (possibleRolls firstRoll).map fun d => (d, equity d)
  have valued : Steady (q.rollValues firstRoll) values :=
    .mapM (fun d => (steady d).bind (.pure (d, equity d))) _
  have rolls : values.map Prod.fst = possibleRolls firstRoll := by
    rw [List.map_map]
    exact List.map_id _
  let luck (dice : Dice) : Rat := (luckAmong values dice).getD 0
  have among {dice : Dice} (possible : Possible firstRoll dice) :
      luckAmong values dice = some (luck dice) := by
    have found : luckAmong values dice ≠ none :=
      mt (luckAmong_eq_none_iff rolls).1 (not_not_intro possible)
    exact (Option.getD_of_ne_none found 0).symm
  refine ⟨luck, fun dice possible w => ?_,
    fun dice => congrArg (Option.getD · 0) (luckAmong_swap values dice),
    sum_luckAmong firstRoll equity⟩
  obtain ⟨w', yields⟩ := valued w
  exact ⟨w', yields_rollLuck_iff.2 ⟨values, yields, among possible⟩⟩

end Replies

/-- **When luck cannot be told**: the evaluations it calls for fail, or the dice are no roll that can
come. -/
theorem rollLuck_throws_iff :
    (∃ e w', Throws (q.rollLuck dice firstRoll) w e w') ↔
      (∃ fault w', Throws (q.askAll (q.needed firstRoll)) w fault w') ∨ ¬Possible firstRoll dice := by
  have asks := asks_rollValues (q := q) firstRoll
  have failing {fault : Fault} {w' : σ} (failed : Throws (q.rollValues firstRoll) w fault w') :
      ∃ e w', Throws (q.rollLuck dice firstRoll) w e w' :=
    ⟨_, w', throws_rollLuck_iff.2 (.inl ⟨fault, failed, rfl⟩)⟩
  have unfound {values : List (Dice × Rat)} {w' : σ}
      (valued : Yields (q.rollValues firstRoll) w values w') :
      luckAmong values dice = none ↔ ¬Possible firstRoll dice :=
    luckAmong_eq_none_iff (rolls_of_yields valued)
  constructor
  · rintro ⟨e, w', h⟩
    rcases throws_rollLuck_iff.1 h with ⟨fault, failed, -⟩ | ⟨values, valued, none, -⟩
    · exact .inl ⟨fault, w', asks.throws_iff.1 failed⟩
    · exact .inr ((unfound valued).1 none)
  · rintro (⟨fault, w', failed⟩ | impossible)
    · exact failing (asks.throws_iff.2 failed)
    · rcases yields_or_throws (q.rollValues firstRoll) w with ⟨values, w', valued⟩ | ⟨_, _, failed⟩
      · have none := (unfound valued).2 impossible
        exact ⟨_, w', throws_rollLuck_iff.2 (.inr ⟨values, valued, none, rfl⟩)⟩
      · exact failing failed

/-- **Luck averages to zero, or cannot be told.**

Where the evaluator always answers, and answers alike in every world, every roll that can come has its
luck, dice in either order have the same, and the sum over the distinct rolls, each as often as it can
fall, is zero.  Whatever the evaluator does, luck does not depend on the order of the dice, and it cannot be
told just when one of the evaluations fails that the rolls a player might have had call for, or when the
dice are no roll that can come. -/
theorem luck_averages_out (q : Position (StateM σ) Rat Board Move) (firstRoll : Bool) :
    (∀ answer : Board → Equities Rat, (q.Replies fun next => .ok (answer next)) →
      ∃ luck : Dice → Rat,
        (∀ dice, Possible firstRoll dice → Steady (q.rollLuck dice firstRoll) (luck dice)) ∧
        (∀ dice, luck dice.swap = luck dice) ∧
        ((possibleRolls firstRoll).map fun d => (d.weight : Rat) * luck d).sum = 0) ∧
    (∀ dice w luck w', Yields (q.rollLuck dice.swap firstRoll) w luck w' ↔
      Yields (q.rollLuck dice firstRoll) w luck w') ∧
    (∀ dice w, (∃ e w', Throws (q.rollLuck dice firstRoll) w e w') ↔
      (∃ fault w', Throws (q.askAll (q.needed firstRoll)) w fault w') ∨
        dice.isValid = false ∨ firstRoll = true ∧ dice.isDouble = true) ∧
    ∀ reply, q.Replies reply → ∀ dice w, (∃ e w', Throws (q.rollLuck dice firstRoll) w e w') ↔
      (∃ d ∈ possibleRolls firstRoll, ∃ next ∈ q.successors d, q.game.outcome? next = none ∧
        ∃ fault, reply next = .error fault) ∨
        dice.isValid = false ∨ firstRoll = true ∧ dice.isDouble = true := by
  refine ⟨fun answer h => h.exists_luck firstRoll, fun dice w luck w' => ?_, fun dice w => ?_,
    fun reply h dice w => ?_⟩
  · simp only [yields_rollLuck_iff, luckAmong_swap]
  · rw [rollLuck_throws_iff, not_possible_iff]
  · rw [rollLuck_throws_iff, h.throws_askAll_needed_iff, not_possible_iff]

/-- A game without end in which a roll is added to the lead, a double twice, or not at all.  The
evaluator counts how often it is asked. -/
def leading (reply : Int → Except Fault (Equities Rat)) : Position (StateM Nat) Rat Int Int where
  game := {
    legalMoves := fun _ d => [(if d.isDouble then 2 else 1) * (d.first + d.second), 0]
    play := fun lead gain => -(lead + gain)
    pass := fun lead => -lead
    outcome? := fun _ => none }
  evaluator lead _ _ := ExceptT.mk do
    modify (· + 1)
    return reply lead
  met := ⟨fun _ _ _ => 1 / 2⟩
  board := 0
  stakes := .money .zero
  settings := .static

/-- From level, luck averages to zero, and who begins with six and five is lucky.  An evaluator that has
nothing to say about a lead of 24 can tell no luck, unless a double six cannot come. -/
theorem leading_luck :
    let equity (lead : Int) : Equities Rat := ⟨1 / 2, 0, 0, 0, 0, lead / 20, lead / 20⟩
    let limited (lead : Int) : Except Fault (Equities Rat) :=
      if lead = -24 then .error .crashed else .ok (equity lead)
    (∃ luck : Dice → Rat,
      (∀ dice, Possible true dice →
        Steady ((leading (.ok <| equity ·)).rollLuck dice true) (luck dice)) ∧
      (∀ dice, luck dice.swap = luck dice) ∧
      ((possibleRolls true).map fun d => (d.weight : Rat) * luck d).sum = 0) ∧
    (∀ dice w, ∃ e w', Throws ((leading limited).rollLuck dice false) w e w') ∧
    Yields ((leading limited).rollLuck ⟨6, 5⟩ true) 0 (1 / 5) 30 := by
  intro equity limited
  have replies (reply : Int → Except Fault (Equities Rat)) : (leading reply).Replies reply :=
    fun _ w => ⟨w + 1, rfl⟩
  refine ⟨(luck_averages_out _ true).1 equity (replies _), fun dice w => ?_, by decide +kernel⟩
  exact ((luck_averages_out _ false).2.2.2 limited (replies limited) dice w).2
    (.inl ⟨⟨6, 6⟩, by decide, -24, by decide, rfl, .crashed, rfl⟩)

end Position

end Analysis

end Backgammon
