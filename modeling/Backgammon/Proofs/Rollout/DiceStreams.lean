import Backgammon.Proofs.Rollout.Stratified

/-!
# Proofs/Rollout/DiceStreams — what the trials of a rollout can throw

    first roll of a game ──────▸ the openings, or words drawn until there is no double
    turns with permutations ───▸ the rotated index
    all other turns ───────────▸ words drawn from the stream

Where a roll comes from depends on the turn and on three flags.  Every source hands out the index of an
ordered roll, so every roll is one of two dice; and what turns the dice of the second trial of a pair upside
down comes after the sources, so both trials draw the same words.

* `isDouble_openingIndex` — a first roll that is rotated is no double; one that is drawn is none by its
  type.
* `DiceStream.isValid_ofIndex_nextIndex`, `isValid_next`, `isValid_of_mem_take` — the index, the roll, all
  rolls.
* `SeededDice.take_start_pair` — the trials of a pair throw opposite sides of the same rolls.
* `SeededDice.rolls_of_trials` — the three together, of the dice of a seed.
-/

namespace Backgammon

namespace Dice

/-- A double shows a double underneath. -/
theorem isDouble_underside {d : Dice} (valid : d.isValid = true) :
    d.underside.isDouble = d.isDouble := by
  obtain ⟨first, second⟩ := d
  simp only [isValid, Bool.and_eq_true, decide_eq_true_eq] at valid
  rw [Bool.eq_iff_iff, isDouble, isDouble, beq_iff_eq, beq_iff_eq]
  dsimp only [underside]
  omega

end Dice

namespace Rollout

open Backgammon.Random

/-! ## First rolls -/

namespace SeededDice

variable {d : SeededDice} (perm : d.Permutes) (game : Nat)

include perm

theorem opening_openingIndex : (Dice.ofIndex (d.openingIndex game)).isValid = true ∧
    (!(Dice.ofIndex (d.openingIndex game)).isDouble) = true :=
  (bijOn_openingIndex perm game).mapsTo ⟨Nat.le_refl game, Nat.lt_add_of_pos_right (by decide)⟩

/-- **A first roll that is rotated** is no double. -/
theorem isDouble_openingIndex : (Dice.ofIndex (d.openingIndex game)).isDouble = false :=
  (Bool.not_eq_eq_eq_not ..).1 (opening_openingIndex perm game).2

end SeededDice

/-! ## Rolls one by one -/

namespace DiceStream

variable {s : DiceStream} (perm : s.dice.Permutes)

section

include perm

/-- **Every source hands out the index of a roll.** -/
theorem isValid_ofIndex_nextIndex : (Dice.ofIndex s.nextIndex.1).isValid = true := by
  rw [nextIndex]
  split
  · split
    · exact (SeededDice.opening_openingIndex perm s.game).1
    · exact Dice.isValid_ofIndex (drawOpening s.keystream).1.2.1
  · split
    · exact Dice.isValid_ofIndex (SeededDice.rotatedIndex_lt perm s.game s.turn)
    · exact Dice.isValid_ofIndex (s.keystream.below64_lt (Nat.succ_pos 35))

theorem isValid_next : s.next.1.isValid = true := by
  have valid := isValid_ofIndex_nextIndex perm
  rw [next]
  dsimp only
  split
  · exact Dice.isValid_underside valid
  · exact valid

/-- **All rolls are valid**, however many are thrown: a roll leaves the dice as they are. -/
theorem isValid_of_mem_take (turns : Nat) : ∀ roll ∈ s.take turns, roll.isValid = true := by
  induction turns generalizing s with
  | zero => exact nofun
  | succ turns ih =>
    rw [take_succ, List.forall_mem_cons]
    exact ⟨isValid_next perm, ih (s := s.next.2) perm⟩

/-- **From the initial position** the first roll is no double. -/
theorem isDouble_next (initialPosition : s.dice.initialPosition = true) (first : s.turn = 0) :
    s.next.1.isDouble = false := by
  have index : (Dice.ofIndex s.nextIndex.1).isDouble = false := by
    have opening : (s.dice.initialPosition && s.turn == 0) = true := by
      rw [initialPosition, first]
      rfl
    rw [nextIndex, if_pos opening]
    split
    · exact SeededDice.isDouble_openingIndex perm s.game
    · exact (drawOpening s.keystream).1.2.2
  rw [next]
  dsimp only
  split
  · rw [Dice.isDouble_underside (isValid_ofIndex_nextIndex perm), index]
  · exact index

end

theorem length_take (s : DiceStream) (turns : Nat) : (s.take turns).length = turns := by
  induction turns generalizing s with
  | zero => rfl
  | succ turns ih => rw [take_succ, List.length_cons, ih]

end DiceStream

/-! ## Trials -/

namespace SeededDice

/-- **The trials of a pair** throw opposite sides of the same rolls. -/
theorem take_start_pair {d : SeededDice} (antithetic : d.antithetic = true) (k turns : Nat) :
    (d.start (2 * k + 1)).take turns = ((d.start (2 * k)).take turns).map Dice.underside := by
  have odd : (2 * k + 1) / 2 = k ∧ (2 * k + 1) % 2 = 1 := by omega
  have even : 2 * k / 2 = k ∧ 2 * k % 2 = 0 := by omega
  rw [take_start d (2 * k + 1), take_start d (2 * k), antithetic]
  simp [odd, even]

/-- **The rolls of all trials.**  Whatever the flags, every trial throws as many valid rolls as it is asked
for; from the initial position the first of them is no double; and the second trial of an antithetic pair
throws the rolls of the first one, one by one, upside down. -/
theorem rolls_of_trials (seed : UInt64) (rotate antithetic initialPosition : Bool) (turns : Nat) :
    (∀ trial, (((make seed rotate antithetic initialPosition).start trial).take turns).length = turns ∧
      ∀ roll ∈ ((make seed rotate antithetic initialPosition).start trial).take turns,
        roll.isValid = true) ∧
    (initialPosition = true → ∀ trial,
      ∀ roll ∈ (((make seed rotate antithetic initialPosition).start trial).take turns).head?,
        roll.isDouble = false) ∧
    (antithetic = true → ∀ k,
      ((make seed rotate antithetic initialPosition).start (2 * k + 1)).take turns =
        (((make seed rotate antithetic initialPosition).start (2 * k)).take turns).map Dice.underside) := by
  have perm : (make seed rotate antithetic initialPosition).Permutes :=
    permutes_make seed rotate antithetic initialPosition
  refine ⟨fun trial => ⟨DiceStream.length_take _ turns, ?_⟩, fun initial trial roll first => ?_,
    fun paired k => take_start_pair paired k turns⟩
  · exact DiceStream.isValid_of_mem_take (s := start _ trial) perm turns
  · cases turns with
    | zero => exact nomatch first
    | succ turns =>
      rw [DiceStream.take_succ, List.head?_cons, Option.mem_some_iff] at first
      rw [← first]
      exact DiceStream.isDouble_next (s := start _ trial) perm initial rfl

/-- Two hundred rolls of the fourth pair of trials, past the turns that are rotated. -/
theorem fourth_pair_rolls :
    let d := make 9 true true true
    let rolls := (d.start 6).take 200
    rolls.length = 200 ∧ (∃ roll ∈ rolls, roll.isValid = true) ∧
      (∃ roll ∈ rolls.head?, roll.isDouble = false) ∧
      (d.start 7).take 200 = rolls.map Dice.underside := by
  intro d rolls
  obtain ⟨valid, opening, paired⟩ := rolls_of_trials 9 true true true 200
  have first : (d.start 6).next.1 ∈ rolls.head? :=
    congrArg List.head? (DiceStream.take_succ (d.start 6) 199)
  exact ⟨(valid 6).1, ⟨_, List.mem_of_mem_head? first, (valid 6).2 _ (List.mem_of_mem_head? first)⟩,
    ⟨_, first, opening rfl 6 _ first⟩, paired rfl 3⟩

end SeededDice

end Rollout

end Backgammon
