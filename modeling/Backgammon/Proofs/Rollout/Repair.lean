import Backgammon.Proofs.Rollout.Turns
import Backgammon.Proofs.ScalarSigns

/-!
# Proofs/Rollout/Repair — what clamping makes of answers that make no sense

    evaluator ──answer──▸ consistent? ──yes──▸ handed on as it is
                               └──no──▸ every chance clamped by itself ──▸ handed on

Clamping moves every chance into `[0, 1]`, and so it settles the order of two chances that are out of order
because one is out of range.  Two chances in range it leaves as they are, in whatever order: an answer with
more gammons than wins is handed on with more gammons than wins.

* `Doubles.clampUnit_le_clampUnit_iff`, `clampUnit_le_one_sub_iff` — the order of chances once clamped.
* `Equities.Mendable` — no chance in range exceeds another in range that it is part of.
* `Equities.isConsistent_repaired_iff` — just the vectors that are mendable are consistent when repaired.
* `evaluate_repaired` — what trials are handed, for every evaluator.
-/

namespace Backgammon

namespace Doubles

open Scalar

variable {x y w : Float}

/-! ## Clamped numbers -/

theorem unit_ordered : (0 : Float) ≤ 1 := by decide +kernel

theorem unit_proper : ¬(1 : Float) ≤ 0 := by decide +kernel

theorem isFinite_one : (1 : Float).isFinite = true := by decide +kernel

theorem clampUnit_eq (x : Float) : clampUnit x = if x < 0 then 0 else if 1 < x then 1 else x := rfl

/-- A number is out of range below, or above, or stays what it is. -/
theorem clampUnit_cases (number : x.isNaN = false) :
    x ≤ 0 ∧ clampUnit x = 0 ∨ 1 ≤ x ∧ clampUnit x = 1 ∨ (0 ≤ x ∧ x ≤ 1) ∧ clampUnit x = x := by
  rw [clampUnit_eq]
  by_cases below : x < 0
  · exact .inl ⟨le_of_lt number (by rfl) below, if_pos below⟩
  by_cases above : 1 < x
  · exact .inr (.inl ⟨le_of_lt (by rfl) number above, by rw [if_neg below, if_pos above]⟩)
  · refine .inr (.inr ⟨⟨le_of_not_lt number (by rfl) below, le_of_not_lt (by rfl) number above⟩, ?_⟩)
    rw [if_neg below, if_neg above]

/-- **What is clamped lies in range.** -/
theorem clampUnit_mem (number : x.isNaN = false) : 0 ≤ clampUnit x ∧ clampUnit x ≤ 1 := by
  rcases clampUnit_cases number with ⟨-, eq⟩ | ⟨-, eq⟩ | ⟨range, eq⟩ <;> rw [eq]
  · exact ⟨le_refl (by rfl), unit_ordered⟩
  · exact ⟨unit_ordered, le_refl (by rfl)⟩
  · exact range

/-- **Clamping settles the order**: the one is no greater, or out of range below, or the other is out of
range above. -/
def Settles (x y : Float) : Prop := x ≤ y ∨ x ≤ 0 ∨ 1 ≤ y

/-- Against what is out of range below only the same is in order. -/
theorem settles_iff_of_nonpos (below : y ≤ 0) : Settles x y ↔ x ≤ 0 := by
  refine ⟨?_, fun le => .inr (.inl le)⟩
  rintro (le | le | le)
  · exact le_of_le_of_le le below
  · exact le
  · exact absurd (le_of_le_of_le le below) unit_proper

/-- Clamped numbers against what is not out of range below. -/
theorem clampUnit_le_iff (number : x.isNaN = false) (nonneg : 0 ≤ y) :
    clampUnit x ≤ y ↔ Settles x y := by
  rcases clampUnit_cases number with ⟨below, eq⟩ | ⟨above, eq⟩ | ⟨⟨-, x_le⟩, eq⟩ <;> rw [eq]
  · exact ⟨fun _ => .inr (.inl below), fun _ => nonneg⟩
  · refine ⟨fun le => .inr (.inr le), ?_⟩
    rintro (le | le | le)
    · exact le_of_le_of_le above le
    · exact absurd (le_of_le_of_le above le) unit_proper
    · exact le
  · refine ⟨.inl, ?_⟩
    rintro (le | le | le)
    · exact le
    · exact le_of_le_of_le le nonneg
    · exact le_of_le_of_le x_le le

/-- **Clamped numbers are in order** just when clamping settles it. -/
theorem clampUnit_le_clampUnit_iff (hx : x.isNaN = false) (hy : y.isNaN = false) :
    clampUnit x ≤ clampUnit y ↔ Settles x y := by
  rw [clampUnit_le_iff hx (clampUnit_mem hy).1]
  rcases clampUnit_cases hy with ⟨below, eq⟩ | ⟨above, eq⟩ | ⟨-, eq⟩ <;> rw [eq]
  · rw [settles_iff_of_nonpos below, settles_iff_of_nonpos (le_refl (by rfl))]
  · exact ⟨fun _ => .inr (.inr above), fun _ => .inr (.inr (le_refl (by rfl)))⟩

/-- What is left of one once a number has been clamped is what is left of it otherwise, clamped. -/
theorem clampUnit_le_one_sub_iff (hx : x.isNaN = false) (hw : w.isFinite = true) :
    clampUnit x ≤ 1 - clampUnit w ↔ Settles x (1 - w) := by
  rcases clampUnit_cases (isNaN_of_isFinite hw) with ⟨below, eq⟩ | ⟨above, eq⟩ | ⟨⟨-, le_one⟩, eq⟩
  · have all_left : 1 - 0 ≤ 1 - w := sub_le_sub_left hw (by rfl) isFinite_one below
    rw [sub_zero] at all_left
    rw [eq, sub_zero]
    exact ⟨fun _ => .inr (.inr all_left), fun _ => (clampUnit_mem hx).2⟩
  · have none_left : 1 - w ≤ 1 - 1 := sub_le_sub_left isFinite_one hw isFinite_one above
    have zero : (1 : Float) - 1 = 0 := by decide +kernel
    rw [zero] at none_left
    rw [eq, zero, clampUnit_le_iff hx (le_refl (by rfl)), settles_iff_of_nonpos none_left,
      settles_iff_of_nonpos (le_refl (by rfl))]
  · rw [eq]
    exact clampUnit_le_iff hx (sub_nonneg isFinite_one hw le_one)

end Doubles

/-! ## Repaired vectors -/

namespace Equities

open Doubles (Settles)

/-- **Clamping mends the vector**: it settles the order of every chance and the one that it is part of. -/
structure Mendable (v : Equities Float) : Prop where
  winGammon : Settles v.winGammon v.win
  winBackgammon : Settles v.winBackgammon v.winGammon
  loseGammon : Settles v.loseGammon (1 - v.win)
  loseBackgammon : Settles v.loseBackgammon v.loseGammon

variable {v : Equities Float}

/-- Consistency as inequalities between doubles. -/
theorem isConsistent_iff_ordered (v : Equities Float) : v.isConsistent = true ↔
    (0 ≤ v.win ∧ v.win ≤ 1) ∧ (0 ≤ v.winGammon ∧ v.winGammon ≤ v.win) ∧
      (0 ≤ v.winBackgammon ∧ v.winBackgammon ≤ v.winGammon) ∧
      (0 ≤ v.loseGammon ∧ v.loseGammon ≤ 1 - v.win) ∧
      (0 ≤ v.loseBackgammon ∧ v.loseBackgammon ≤ v.loseGammon) := by
  simp only [isConsistent, Scalar.within, Bool.and_eq_true, decide_eq_true_eq, and_assoc]

/-- A consistent vector needs no mending. -/
theorem mendable_of_isConsistent (consistent : v.isConsistent = true) : v.Mendable := by
  obtain ⟨-, winGammon, winBackgammon, loseGammon, loseBackgammon⟩ :=
    (isConsistent_iff_ordered v).1 consistent
  exact ⟨.inl winGammon.2, .inl winBackgammon.2, .inl loseGammon.2, .inl loseBackgammon.2⟩

/-- Chances in order are in range. -/
theorem chance_mem_of_isConsistent (win_finite : v.win.isFinite = true)
    (consistent : v.isConsistent = true) (k : Component)
    (chance : k ≠ .cubelessEquity ∧ k ≠ .cubefulEquity) : 0 ≤ v.get k ∧ v.get k ≤ 1 := by
  obtain ⟨win, winGammon, winBackgammon, loseGammon, loseBackgammon⟩ :=
    (isConsistent_iff_ordered v).1 consistent
  have winGammon_le : v.winGammon ≤ 1 := Scalar.le_of_le_of_le winGammon.2 win.2
  have loseGammon_le : v.loseGammon ≤ 1 := by
    have left : 1 - v.win ≤ 1 - 0 :=
      Doubles.sub_le_sub_left (by rfl) win_finite Doubles.isFinite_one win.1
    rw [Doubles.sub_zero] at left
    exact Scalar.le_of_le_of_le loseGammon.2 left
  cases k with
  | win => exact win
  | winGammon => exact ⟨winGammon.1, winGammon_le⟩
  | winBackgammon => exact ⟨winBackgammon.1, Scalar.le_of_le_of_le winBackgammon.2 winGammon_le⟩
  | loseGammon => exact ⟨loseGammon.1, loseGammon_le⟩
  | loseBackgammon => exact ⟨loseBackgammon.1, Scalar.le_of_le_of_le loseBackgammon.2 loseGammon_le⟩
  | cubelessEquity => exact absurd rfl chance.1
  | cubefulEquity => exact absurd rfl chance.2

section

variable (finite : ∀ k, (v.get k).isFinite = true)
include finite

/-- **Clamped chances are consistent** just when the vector is mendable. -/
theorem isConsistent_clampChances_iff : v.clampChances.isConsistent = true ↔ v.Mendable := by
  have number (k : Component) := Doubles.isNaN_of_isFinite (finite k)
  have unit (k : Component) := Doubles.clampUnit_mem (number k)
  have le_iff (k l : Component) := Doubles.clampUnit_le_clampUnit_iff (number k) (number l)
  have lost := Doubles.clampUnit_le_one_sub_iff (number .loseGammon) (finite .win)
  rw [isConsistent_iff_ordered]
  constructor
  · rintro ⟨-, winGammon, winBackgammon, loseGammon, loseBackgammon⟩
    exact ⟨(le_iff .winGammon .win).1 winGammon.2,
      (le_iff .winBackgammon .winGammon).1 winBackgammon.2, lost.1 loseGammon.2,
      (le_iff .loseBackgammon .loseGammon).1 loseBackgammon.2⟩
  · intro mendable
    exact ⟨unit .win, ⟨(unit .winGammon).1, (le_iff .winGammon .win).2 mendable.winGammon⟩,
      ⟨(unit .winBackgammon).1, (le_iff .winBackgammon .winGammon).2 mendable.winBackgammon⟩,
      ⟨(unit .loseGammon).1, lost.2 mendable.loseGammon⟩,
      ⟨(unit .loseBackgammon).1, (le_iff .loseBackgammon .loseGammon).2 mendable.loseBackgammon⟩⟩

/-- **Just the mendable vectors are consistent when repaired.** -/
theorem isConsistent_repaired_iff : v.repaired.isConsistent = true ↔ v.Mendable := by
  by_cases consistent : v.isConsistent = true
  · rw [repaired, if_pos consistent]
    exact iff_of_true consistent (mendable_of_isConsistent consistent)
  · rw [repaired, if_neg consistent]
    exact isConsistent_clampChances_iff finite

/-- **Repaired chances lie in range**, in order or not. -/
theorem chance_repaired_mem (k : Component) (chance : k ≠ .cubelessEquity ∧ k ≠ .cubefulEquity) :
    0 ≤ v.repaired.get k ∧ v.repaired.get k ≤ 1 := by
  by_cases consistent : v.isConsistent = true
  · rw [repaired, if_pos consistent]
    exact chance_mem_of_isConsistent (finite .win) consistent k chance
  · have unit := Doubles.clampUnit_mem (Doubles.isNaN_of_isFinite (finite k))
    rw [repaired, if_neg consistent]
    cases k with
    | cubelessEquity => exact absurd rfl chance.1
    | cubefulEquity => exact absurd rfl chance.2
    | _ => exact unit

end

end Equities

/-! ## Answers handed on -/

namespace Rollout

variable {σ δ Board Move : Type}

/-- **What trials are handed** when the evaluator answers with finite numbers: the answer with its equities,
and as it is if it makes sense; else with its chances in range.  It makes sense just when clamping settles
the order of every chance and the one that it is part of. -/
theorem evaluate_repaired (a : Arena (StateM σ) δ Float Board Move) {board : Board} {s : Stakes}
    {c : EvalSettings Float} {w w' : σ} {v : Equities Float}
    (answer : Yields (a.evaluator board s c) w v w') (finite : ∀ k, (v.get k).isFinite = true) :
    ∃ u, Yields (a.evaluate board s c) w u w' ∧
      (u.cubeless = v.cubeless ∧ u.cubeful = v.cubeful) ∧
      (v.isConsistent = true → u = v) ∧
      (∀ k, k ≠ .cubelessEquity ∧ k ≠ .cubefulEquity → 0 ≤ u.get k ∧ u.get k ≤ 1) ∧
      (u.isConsistent = true ↔ v.Mendable) := by
  have handed : Yields (a.evaluate board s c) w v.repaired w' :=
    Yields.bind_iff.2 ⟨v, w', Yields.adapt_iff.2 answer, Yields.pure_iff.2 ⟨rfl, rfl⟩⟩
  have equities : v.repaired.cubeless = v.cubeless ∧ v.repaired.cubeful = v.cubeful := by
    rw [Equities.repaired]
    split <;> exact ⟨rfl, rfl⟩
  exact ⟨v.repaired, handed, equities, fun consistent => if_pos consistent,
    Equities.chance_repaired_mem finite, Equities.isConsistent_repaired_iff finite⟩

/-- An arena in which the board is what the evaluator answers. -/
def echoing : Arena (StateM Unit) Unit Float (Equities Float) Unit where
  game := { legalMoves := fun _ _ => [], play := fun v _ => v, pass := id, outcome? := fun _ => none }
  evaluator v _ _ := pure v
  met := ⟨fun _ _ _ => 0.5⟩
  settings := .standard
  roll _ := pure (⟨1, 2⟩, ())
  interrupted _ := pure false

/-- More than certain wins and gammons, and less than no backgammons, are mended. -/
theorem echoing_repaired :
    let v : Equities Float := ⟨1.25, 1.125, -0.25, -0.125, -0.125, 2.5, 2.5⟩
    (∀ k, (v.get k).isFinite = true) ∧ Yields (echoing.evaluator v (.money .zero) .static) () v () ∧
      ∃ u, Yields (echoing.evaluate v (.money .zero) .static) () u () ∧ u.isConsistent = true ∧
        u.cubeful = 2.5 := by
  intro v
  have finite : ∀ k, (v.get k).isFinite = true := by
    intro k
    cases k <;> decide +kernel
  have answer : Yields (echoing.evaluator v (.money .zero) .static) () v () := rfl
  have mendable : v.Mendable :=
    ⟨.inr (.inr (by decide +kernel)), .inl (by decide +kernel), .inr (.inl (by decide +kernel)),
      .inl (by decide +kernel)⟩
  obtain ⟨u, handed, ⟨-, cubeful⟩, -, -, consistent⟩ := evaluate_repaired echoing answer finite
  exact ⟨finite, answer, u, handed, consistent.2 mendable, cubeful⟩

/-- **More gammons than wins, all of them in range, are handed on** as they are. -/
theorem excess_gammons_handed_on :
    let v := Equities.ofChances (0.75 : Float) 0.9375 0 0 0
    (∀ k, (v.get k).isFinite = true) ∧ Yields (echoing.evaluator v (.money .zero) .static) () v () ∧
      Yields (echoing.evaluate v (.money .zero) .static) () v () ∧ v.isConsistent = false := by
  intro v
  refine ⟨?_, rfl, by decide +kernel, by decide +kernel⟩
  intro k
  cases k <;> decide +kernel

end Rollout

end Backgammon
