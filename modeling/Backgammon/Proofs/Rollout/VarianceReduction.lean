import Backgammon.Proofs.Rollout.Reliable
import Backgammon.Proofs.Rollout.Turns
import Backgammon.Race
import Mathlib.Algebra.BigOperators.Ring.Finset
import Mathlib.Algebra.BigOperators.Ring.List
import Mathlib.Algebra.Order.Ring.Rat
import Mathlib.Tactic.FieldSimp
import Mathlib.Tactic.Ring

/-!
# Proofs/Rollout/VarianceReduction — taking off the luck changes no mean

A rollout may take the luck of every roll off the result of a trial.  Single results change; what
must not change is their mean over all dice, else a rollout would estimate something else:

    Σ over dice of (result − luck)  =  Σ over dice of result      (`varianceReduction_unbiased`)

Three inputs, all read over exact numbers.

**Luck sums to zero** (`sum_luckOf`).  Values are taken of the distinct rolls and weighed; the dice
fall as ordered rolls.  A distinct roll is found for as many ordered ones as its weight says
(`Dice.StandFor`), so the sum over the ordered rolls is the weighted one and the mean cancels it.

**Luck does not steer a trial** (`over_or_rolls`, `exists_rollAndPlay_eq`).  Whether a trial is over,
what happens to the cube and where a roll leads depend on the board, the stakes and the ply alone.
A trial with the luck noted runs through the same boards as one without.

**A roll shifts the results that begin with it** (`evensOut_of_next`).  All of them lose its luck, and
over the rolls of a turn the shifts cancel.  The induction is on the turns that are left before a trial
is cut short (`Reliable.evensOut`).
-/

namespace Backgammon

/-! ## Ordered and distinct rolls -/

namespace Dice

/-- The 36 ordered rolls. -/
def ordered : List Dice := (List.range rolls).map ofIndex

/-- The 30 ordered rolls that are no doubles. -/
def orderedNonDoubles : List Dice := ordered.filter fun d => !d.isDouble

/-- **Distinct rolls stand for ordered ones**: a distinct roll is found for as many of the ordered
rolls as its weight says, and every ordered roll finds one. -/
def StandFor (shown all : List Dice) : Prop :=
  (all.map fun r => shown.find? (·.sameFaces r)).Perm
    (shown.flatMap fun d => List.replicate d.weight (some d))

theorem standFor_distinct : StandFor distinct ordered := by
  unfold StandFor
  decide +kernel

theorem standFor_distinctNonDoubles : StandFor distinctNonDoubles orderedNonDoubles := by
  unfold StandFor
  decide +kernel

theorem cast_totalWeight (ds : List Dice) :
    (totalWeight ds : Rat) = (ds.map fun d => (d.weight : Rat)).sum := by
  rw [totalWeight, ← List.foldl_map (f := weight) (g := (· + ·)), ← List.sum_eq_foldl,
    Nat.cast_list_sum, List.map_map]
  rfl

end Dice

namespace Rollout

open Dice

/-! ## Sums -/

theorem sum_flatMap {β : Type} (l : List β) (f : β → List Rat) :
    (l.flatMap f).sum = (l.map fun b => (f b).sum).sum := by
  rw [List.flatMap_def, List.sum_flatten, List.map_map]
  rfl

theorem sum_map_sub {β : Type} (l : List β) (f g : β → Rat) :
    (l.map fun b => f b - g b).sum = (l.map f).sum - (l.map g).sum :=
  List.sum_hom₂ l (· - ·) (fun _ _ _ _ => add_sub_add_comm ..) (sub_zero 0) f g

/-! ## The luck of a roll -/

section

variable (shown : List Dice) (value : Dice → Equities Rat)

/-- The weighted mean of the values of rolls. -/
def meanValue : Equities Rat :=
  (shown.foldl (fun sum d => Equities.zipWith (fun t e => t + e * (d.weight : Rat)) sum (value d))
    .zero).map (· / (totalWeight shown : Rat))

/-- **The luck of a roll**, given the values of rolls: the value of the one with the same faces, less
the mean. -/
def luckOf (roll : Dice) : Equities Rat :=
  match shown.find? (·.sameFaces roll) with
  | some d => Equities.zipWith (· - ·) (value d) (meanValue shown value)
  | none => .zero

theorem get_foldl_weighted (k : Component) (v : Equities Rat) :
    (shown.foldl
      (fun sum d => Equities.zipWith (fun t e => t + e * (d.weight : Rat)) sum (value d)) v).get k =
      v.get k + (shown.map fun d => (value d).get k * (d.weight : Rat)).sum := by
  induction shown generalizing v with
  | nil => exact (add_zero _).symm
  | cons d shown ih =>
    rw [List.foldl_cons, ih, Equities.get_zipWith, List.map_cons, List.sum_cons, add_assoc]

theorem get_meanValue (k : Component) :
    (meanValue shown value).get k =
      (shown.map fun d => (value d).get k * (d.weight : Rat)).sum / (totalWeight shown : Rat) := by
  rw [meanValue, Equities.get_map, get_foldl_weighted, Equities.zero, Equities.get_splat]
  exact congrArg (· / _) (zero_add _)

variable {shown}

/-- **Luck sums to zero** over the ordered rolls that the distinct ones stand for. -/
theorem sum_luckOf {all : List Dice} (h : StandFor shown all) (pos : totalWeight shown ≠ 0)
    (k : Component) : (all.map fun d => (luckOf shown value d).get k).sum = 0 := by
  -- luck is a function of the distinct roll that is found, and these are known up to their order
  let mean := (meanValue shown value).get k
  let gain : Option Dice → Rat
    | some d => (value d).get k - mean
    | none => 0
  have luck (r : Dice) : (luckOf shown value r).get k = gain (shown.find? (·.sameFaces r)) := by
    rw [luckOf]
    cases shown.find? (·.sameFaces r) with
    | none => exact Equities.get_splat 0 k
    | some d => exact Equities.get_zipWith ..
  have pos : (totalWeight shown : Rat) ≠ 0 := Nat.cast_ne_zero.mpr pos
  calc (all.map fun d => (luckOf shown value d).get k).sum
      = ((all.map fun r => shown.find? (·.sameFaces r)).map gain).sum := by
        simp only [luck, List.map_map, Function.comp_def]
    _ = ((shown.flatMap fun d => List.replicate d.weight (some d)).map gain).sum :=
        (h.map gain).sum_eq
    _ = (shown.map fun d => (value d).get k * (d.weight : Rat) - mean * (d.weight : Rat)).sum := by
        simp [List.map_flatMap, sum_flatMap, gain, mul_comm, mul_sub]
    _ = (shown.map fun d => (value d).get k * (d.weight : Rat)).sum - mean * totalWeight shown := by
        rw [sum_map_sub, List.sum_map_mul_left, cast_totalWeight]
    _ = 0 := by
        rw [sub_eq_zero, show mean = _ from get_meanValue shown value k]
        field_simp

end

/-! ## The dice of a trial -/

namespace Settings

/-- The ordered rolls that can come at a ply, each as likely as the others. -/
def rollsAt (c : Settings Rat) (ply : Nat) : List Dice :=
  if c.initialPosition && ply == 0 then orderedNonDoubles else ordered

/-- **The rolls of so many turns** from a ply on, each sequence as likely as the others. -/
def rollSequences (c : Settings Rat) : (ply turns : Nat) → List (List Dice)
  | _, 0 => [[]]
  | ply, turns + 1 =>
    (c.rollsAt ply).flatMap fun d => (c.rollSequences (ply + 1) turns).map (d :: ·)

theorem mem_rollSequences_succ {c : Settings Rat} {ply turns : Nat} {ds : List Dice} :
    ds ∈ c.rollSequences ply (turns + 1) ↔
      ∃ d ∈ c.rollsAt ply, ∃ es ∈ c.rollSequences (ply + 1) turns, d :: es = ds := by
  simp only [rollSequences, List.mem_flatMap, List.mem_map]

/-- A sum over sequences is taken roll by roll. -/
theorem sum_rollSequences_succ (c : Settings Rat) (ply turns : Nat) (f : List Dice → Rat) :
    ((c.rollSequences ply (turns + 1)).map f).sum =
      ((c.rollsAt ply).map fun d =>
        ((c.rollSequences (ply + 1) turns).map fun ds => f (d :: ds)).sum).sum := by
  rw [rollSequences, List.map_flatMap, sum_flatMap]
  simp only [List.map_map, Function.comp_def]

end Settings

variable {Board Move : Type} {m : Type → Type}

namespace Arena

/-- The same arena, with the luck of the rolls taken off the results or left in. -/
def reducing {δ α : Type} (a : Arena m δ α Board Move) (luckOff : Bool) : Arena m δ α Board Move :=
  { a with settings := { a.settings with varianceReduction := luckOff } }

/-- The rolls of a trial are dealt from a list. -/
def Deals [Monad m] {α : Type} (a : Arena m (List Dice) α Board Move) : Prop :=
  ∀ d ds, a.roll (d :: ds) = pure (d, ds)

variable (a : Arena m (List Dice) Rat Board Move)

theorem standFor_possibleRolls (ply : Nat) :
    StandFor (a.possibleRolls ply) (a.settings.rollsAt ply) := by
  rw [Settings.rollsAt, possibleRolls]
  split
  · exact standFor_distinctNonDoubles
  · exact standFor_distinct

omit a in
theorem totalWeight_possibleRolls_ne_zero {δ : Type} (a : Arena m δ Rat Board Move) (ply : Nat) :
    totalWeight (a.possibleRolls ply) ≠ 0 := by
  rw [possibleRolls]
  split <;> decide

end Arena

/-! ## One turn -/

namespace Arena

variable [Monad m]

variable {a : Arena m (List Dice) Rat Board Move} {t : Trial (List Dice) Rat Board}

variable [LawfulMonad m]

theorem rollLuck_eq {value : Dice → Equities Rat} (h : ∀ d, a.rollValue t d = pure (value d))
    (roll : Dice) : a.rollLuck t roll = pure (luckOf (a.possibleRolls t.ply) value roll) := by
  simp only [rollLuck, h, pure_bind, List.mapM_pure, List.foldl_map, List.map_map,
    Function.comp_def, List.map_id', List.find?_map, luckOf, meanValue]
  cases (a.possibleRolls t.ply).find? (·.sameFaces roll) <;> rfl

theorem turn_of_truncates {v : Equities Rat} (running : a.game.outcome? t.board = none)
    (cut : a.truncates t = true)
    (h : a.evaluate t.board t.stakes { a.settings.truncation with cubeful := a.settings.cubeful } =
      pure v) :
    a.turn t = pure (.over (t.result v)) := by
  rw [turn_eq_of_cut running cut, h, pure_bind]

/-- In a trial that goes on the cube comes first. -/
theorem turn_of_running {offer : CubeTurn Rat} (running : a.game.outcome? t.board = none)
    (uncut : a.truncates t = false) (uninterrupted : a.interrupted t.ply = pure false)
    (h : a.cubeAction t.board t.stakes (a.settings.forCube t.stakes.onRoll t.ply) = pure offer) :
    a.turn t = a.afterCube t (if a.mayDouble t.stakes t.ply then offer else .unturned) := by
  simp only [turn, running, uncut, uninterrupted, h, liftM_pure, pure_bind, Bool.false_eq_true,
    if_false]
  split <;> cases offer <;> rfl

end Arena

namespace Arena.Reliable

variable [Monad m] [LawfulMonad m] {a : Arena m (List Dice) Rat Board Move} (h : a.Reliable)
include h

/-- **Rolls have a luck**, and it sums to zero. -/
theorem exists_rollLuck_eq (t : Trial (List Dice) Rat Board) :
    ∃ luck : Dice → Equities Rat, (∀ roll, a.rollLuck t roll = pure (luck roll)) ∧
      ∀ k, ((a.settings.rollsAt t.ply).map fun d => (luck d).get k).sum = 0 := by
  choose value rollValue_eq using h.certain_rollValue t
  exact ⟨luckOf (a.possibleRolls t.ply) value, rollLuck_eq rollValue_eq,
    fun k => sum_luckOf value (a.standFor_possibleRolls t.ply)
      (a.totalWeight_possibleRolls_ne_zero t.ply) k⟩

/-- **A turn is over before the dice are rolled, or its dice are rolled** at stakes that are settled,
in a trial that is not cut short.  Neither the luck so far nor whether it is noted matters. -/
theorem over_or_rolls (t : Trial (List Dice) Rat Board) :
    (∃ v, ∀ luckOff luck dice, (a.reducing luckOff).turn { t with luck, dice } =
      pure (.over (Equities.zipWith (· - ·) v luck))) ∨
    (a.truncates t = false ∧ ∃ stakes, ∀ luckOff luck dice,
      (a.reducing luckOff).turn { t with luck, dice } =
        .next <$> (a.reducing luckOff).rollAndPlay { t with luck, dice, stakes }) := by
  cases ended : a.game.outcome? t.board with
  | some o =>
    exact .inl ⟨toStart (Equities.ofOutcome o (a.met.outcomeValue t.stakes o)) t.stakes t.flipped
      t.startCube, fun luckOff luck dice =>
        turn_eq_of_finished (a := a.reducing luckOff) (t := { t with luck, dice }) ended⟩
  | none =>
    cases cut : a.truncates t with
    | true =>
      obtain ⟨v, evaluate_eq⟩ := h.certain_evaluate t.board t.stakes
        { a.settings.truncation with cubeful := a.settings.cubeful }
      exact .inl ⟨toStart v t.stakes t.flipped t.startCube, fun luckOff luck dice =>
        turn_of_truncates (a := a.reducing luckOff) (t := { t with luck, dice }) ended cut
          evaluate_eq⟩
    | false =>
      obtain ⟨offer, cubeAction_eq⟩ := h.certain_cubeAction t.board t.stakes
        (a.settings.forCube t.stakes.onRoll t.ply)
      have turn_eq (luckOff : Bool) (luck : Equities Rat) (dice : List Dice) :
          (a.reducing luckOff).turn { t with luck, dice } =
            (a.reducing luckOff).afterCube { t with luck, dice }
              (if a.mayDouble t.stakes t.ply then offer else .unturned) :=
        turn_of_running (a := a.reducing luckOff) (t := { t with luck, dice }) ended cut
          (h.uninterrupted t.ply) cubeAction_eq
      generalize (if a.mayDouble t.stakes t.ply then offer else .unturned) = cubeTurn at turn_eq
      cases cubeTurn with
      | unturned => exact .inr ⟨rfl, t.stakes, turn_eq⟩
      | taken => exact .inr ⟨rfl, t.stakes.doubled, turn_eq⟩
      | passed v => exact .inl ⟨toStart v t.stakes t.flipped t.startCube, turn_eq⟩

/-- **A roll leads on**, the luck noted or not. -/
theorem exists_rollAndPlay_eq (hd : a.Deals) (t : Trial (List Dice) Rat Board) :
    ∃ (board : Dice → Board) (gain : Dice → Equities Rat),
      (∀ luckOff luck d ds, (a.reducing luckOff).rollAndPlay { t with luck, dice := d :: ds } =
        pure { t with
          board := board d
          luck := if luckOff then Equities.zipWith (· + ·) luck (gain d) else luck
          dice := ds
          stakes := t.stakes.swapTurn
          flipped := !t.flipped
          ply := t.ply + 1 }) ∧
      ∀ k, ((a.settings.rollsAt t.ply).map fun d => (gain d).get k).sum = 0 := by
  obtain ⟨gain, rollLuck_eq, sum_gain⟩ := h.exists_rollLuck_eq t
  choose board playRoll_eq using fun d => h.certain_playRoll t.board t.stakes d
    (a.settings.forPlay t.stakes.onRoll t.ply)
  refine ⟨board, gain, fun luckOff luck d ds => ?_, sum_gain⟩
  have dealt : (a.reducing luckOff).roll (d :: ds) = pure (d, ds) := hd d ds
  have noted : (a.reducing luckOff).rollLuck { t with luck, dice := d :: ds } d = pure (gain d) :=
    rollLuck_eq d
  have played : (a.reducing luckOff).playRoll t.board t.stakes d
      ((a.reducing luckOff).settings.forPlay t.stakes.onRoll t.ply) = pure (board d) :=
    playRoll_eq d
  rw [rollAndPlay]
  simp only [dealt, Certain.adapt_pure, pure_bind, noted, played]
  cases luckOff <;> simp [reducing]

end Arena.Reliable

/-! ## Whole trials -/

namespace Arena

variable [Monad m] (a : Arena m (List Dice) Rat Board Move)

/-- **The luck evens out** from a trial on: it comes to a result that depends on its dice, less the
luck so far, and over all dice of so many turns the results have the same sum whether or not the luck
to come is taken off. -/
def EvensOut (horizon turns : Nat) (t : Trial (List Dice) Rat Board) : Prop :=
  ∃ gross : Bool → List Dice → Equities Rat,
    (∀ luckOff luck, ∀ ds ∈ a.settings.rollSequences t.ply turns,
      (a.reducing luckOff).playOn horizon { t with luck, dice := ds } =
        pure (some (Equities.zipWith (· - ·) (gross luckOff ds) luck))) ∧
    ∀ k, ((a.settings.rollSequences t.ply turns).map fun ds => (gross true ds).get k).sum =
      ((a.settings.rollSequences t.ply turns).map fun ds => (gross false ds).get k).sum

variable [LawfulMonad m] {a} {horizon turns : Nat} {t : Trial (List Dice) Rat Board}

/-- A trial that is over has one result for all dice. -/
theorem evensOut_of_over {v : Equities Rat}
    (ends : ∀ luckOff luck dice, (a.reducing luckOff).turn { t with luck, dice } =
      pure (.over (Equities.zipWith (· - ·) v luck))) :
    a.EvensOut (horizon + 1) turns t :=
  ⟨fun _ _ => v, fun luckOff luck ds _ => by rw [playOn, ends, pure_bind], fun _ => rfl⟩

/-- **A roll shifts the results that begin with it** by its luck, and the shifts sum to zero. -/
theorem evensOut_of_next (next : Dice → Trial (List Dice) Rat Board) (gain : Dice → Equities Rat)
    (turn_eq : ∀ luckOff luck d ds, (a.reducing luckOff).turn { t with luck, dice := d :: ds } =
      pure (.next { next d with
        luck := if luckOff then Equities.zipWith (· + ·) luck (gain d) else luck, dice := ds }))
    (ply_next : ∀ d, (next d).ply = t.ply + 1)
    (sum_gain : ∀ k, ((a.settings.rollsAt t.ply).map fun d => (gain d).get k).sum = 0)
    (h : ∀ d, a.EvensOut horizon turns (next d)) :
    a.EvensOut (horizon + 1) (turns + 1) t := by
  choose gross gross_eq sum_gross using h
  simp only [ply_next] at sum_gross
  refine ⟨fun
    | _, [] => .zero
    | false, d :: ds => gross d false ds
    | true, d :: ds => Equities.zipWith (· - ·) (gross d true ds) (gain d), ?_, fun k => ?_⟩
  · intro luckOff luck ds mem
    obtain ⟨d, -, es, later, rfl⟩ := Settings.mem_rollSequences_succ.mp mem
    rw [playOn, turn_eq, pure_bind]
    refine (gross_eq d luckOff _ es (by rwa [ply_next])).trans ?_
    cases luckOff with
    | false => rfl
    | true =>
      congr 2
      ext k
      simp only [Equities.get_zipWith, if_true]
      ring
  · -- the luck of a roll is lost once for each sequence that begins with it, equally many for all
    rw [Settings.sum_rollSequences_succ, Settings.sum_rollSequences_succ]
    simp only [Equities.get_zipWith, sum_map_sub, sum_gross, List.map_const', List.sum_replicate,
      nsmul_eq_mul, List.sum_map_mul_left, sum_gain, mul_zero, sub_zero]

/-- **The luck evens out** from every trial that is cut short after so many turns. -/
theorem Reliable.evensOut (h : a.Reliable) (hd : a.Deals) {limit : Nat}
    (truncated : a.settings.truncateAt = some limit) (left : t.ply + turns = limit)
    (inTime : turns < horizon) : a.EvensOut horizon turns t := by
  obtain ⟨horizon, rfl⟩ := Nat.exists_eq_add_one_of_ne_zero inTime.ne_bot
  induction turns generalizing t horizon with
  | zero =>
    -- no turn is left, so a trial that is not over is cut short
    rcases h.over_or_rolls t with ⟨v, ends⟩ | ⟨uncut, -⟩
    · exact evensOut_of_over ends
    · have cut : a.truncates t = true := by simp [truncates, truncated, ← left]
      simp [cut] at uncut
  | succ turns ih =>
    rcases h.over_or_rolls t with ⟨v, ends⟩ | ⟨-, stakes, turn_eq⟩
    · exact evensOut_of_over ends
    obtain ⟨board, gain, roll_eq, sum_gain⟩ := h.exists_rollAndPlay_eq hd { t with stakes }
    obtain ⟨horizon, rfl⟩ := Nat.exists_eq_add_one_of_ne_zero (n := horizon) (by omega)
    let next (d : Dice) : Trial (List Dice) Rat Board :=
      { t with board := board d, stakes := stakes.swapTurn, flipped := !t.flipped, ply := t.ply + 1 }
    have turned (luckOff : Bool) (luck : Equities Rat) (d : Dice) (ds : List Dice) :
        (a.reducing luckOff).turn { t with luck, dice := d :: ds } = pure (.next { next d with
          luck := if luckOff then Equities.zipWith (· + ·) luck (gain d) else luck, dice := ds }) := by
      rw [turn_eq, roll_eq, map_pure]
    have left_next (d : Dice) : (next d).ply + turns = limit := by
      rw [← left, Nat.add_right_comm]
      rfl
    exact evensOut_of_next next gain turned (fun _ => rfl) sum_gain fun d =>
      ih (left_next d) horizon (by omega)

end Arena

/-- **Taking off the luck changes no mean.**  Where nothing fails and trials are cut short after so many
turns, every sequence of rolls gives a result with the luck taken off and one without, and over all
sequences the two have the same sum in each of the seven numbers. -/
theorem varianceReduction_unbiased [Monad m] [LawfulMonad m]
    (a : Arena m (List Dice) Rat Board Move) (reliable : a.Reliable) (deals : a.Deals)
    {turns horizon : Nat} (truncated : a.settings.truncateAt = some turns)
    (inTime : turns < horizon) (board : Board) (stakes : Stakes) :
    ∃ result : Bool → List Dice → Equities Rat,
      (∀ luckOff, ∀ ds ∈ a.settings.rollSequences 0 turns,
        (a.reducing luckOff).play horizon board stakes ds = pure (some (result luckOff ds))) ∧
      ∀ k, ((a.settings.rollSequences 0 turns).map fun ds => (result true ds).get k).sum =
        ((a.settings.rollSequences 0 turns).map fun ds => (result false ds).get k).sum := by
  obtain ⟨gross, gross_eq, sum_gross⟩ :=
    reliable.evensOut deals truncated (t := .start board stakes []) (Nat.zero_add turns) inTime
  have unshifted (v : Equities Rat) : Equities.zipWith (· - ·) v .zero = v := by
    ext k
    rw [Equities.get_zipWith, Equities.zero, Equities.get_splat]
    exact sub_zero _
  refine ⟨gross, fun luckOff ds mem => ?_, sum_gross⟩
  exact (gross_eq luckOff .zero ds mem).trans (by rw [unshifted])

/-! ### A race in which nothing fails -/

/-- An estimate that is to fail nowhere answers every question. -/
theorem certain_estimate [Monad m] {e : Race.Estimate Rat} (fail : e.failBelow = 0)
    (crash : e.crashBelow = 0) (met : MatchEquity Rat) (board : Race.Pips) (s : Stakes)
    (c : EvalSettings Rat) : Certain (e.evaluate (m := m) met board s c) := by
  have least : ¬((min board.own board.opponent : Nat) : Rat) < 0 := (Nat.cast_nonneg _).not_gt
  simp only [Race.Estimate.evaluate, fail, crash, least]
  exact .of_pure _

/-- A money race that is cut short after two turns. -/
def shortRace : Arena Id (List Dice) Rat Race.Pips Nat where
  game := Race.Rules.game ⟨[0, 1], [], 40, 60, false, none⟩
  evaluator := Race.Estimate.evaluate ⟨4, 4, 0, 1 / 4, 1 / 8, 0, 1, 1 / 5, 0, 0⟩ ⟨fun _ _ _ => 1 / 2⟩
  met := ⟨fun _ _ _ => 1 / 2⟩
  settings := { Settings.standard with truncateAt := some 2 }
  roll
    | [] => throw (.failed "no more rolls")
    | d :: ds => pure (d, ds)
  interrupted _ := pure false

theorem shortRace_unbiased :
    ∃ result : Bool → List Dice → Equities Rat,
      (∀ luckOff, ∀ ds ∈ shortRace.settings.rollSequences 0 2,
        (shortRace.reducing luckOff).play 3 ⟨30, 24⟩ (.money .zero) ds =
          pure (some (result luckOff ds))) ∧
      ∀ k, ((shortRace.settings.rollSequences 0 2).map fun ds => (result true ds).get k).sum =
        ((shortRace.settings.rollSequences 0 2).map fun ds => (result false ds).get k).sum :=
  varianceReduction_unbiased shortRace
    ⟨fun board s c => certain_estimate rfl rfl _ board s c, fun _ => rfl⟩ (fun _ _ => rfl) rfl
    (by decide) ⟨30, 24⟩ (.money .zero)

end Rollout

end Backgammon
