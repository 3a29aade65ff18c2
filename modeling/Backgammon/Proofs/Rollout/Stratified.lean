import Backgammon.Rollout.SeededDice
import Mathlib.Data.Nat.ModEq
import Mathlib.Data.Set.Function
import Mathlib.Order.Interval.Finset.Nat

/-!
# Proofs/Rollout/Stratified — rotated dice are stratified

    game ──digits to the base 36──▸ indices of the first turns ──ofIndex──▸ rolls

On its first turns a game rolls what the permutations make of its digits: turn `t` looks up the digit `t`,
moved on by what the generations before have made of the lower digits.  So one more roll tells one more
digit, and every roll is made by one value of it.

* `Permutes`, `permutes_make` — the permutations of seeded dice are permutations.
* `indexAfter_succ_eq_iff` — one more generation tells one more digit.
* `rotatedIndex_eq_iff`, `exists_rotatedIndex` — the rolls of the first turns tell the game up to a multiple
  of a power of 36, and every sequence of rolls comes up.
* `upright`, `take_start` — the dice of a game, which its trials throw as they are or upside down.
* `stratified` — so many games in a row have each sequence of first rolls once; from the initial position
  thirty games in a row have each opening once.
-/

namespace Backgammon

namespace Dice

/-- The index of an ordered roll. -/
def index (d : Dice) : Nat := 6 * (d.first - 1) + (d.second - 1)

theorem index_lt {d : Dice} (valid : d.isValid = true) : d.index < rolls := by
  simp only [isValid, Bool.and_eq_true, decide_eq_true_eq] at valid
  rw [index, rolls]
  omega

theorem ofIndex_index {d : Dice} (valid : d.isValid = true) : ofIndex d.index = d := by
  obtain ⟨first, second⟩ := d
  simp only [isValid, Bool.and_eq_true, decide_eq_true_eq] at valid
  simp only [ofIndex, index, mk.injEq]
  omega

theorem index_ofIndex {i : Nat} (inside : i < rolls) : (ofIndex i).index = i := by
  rw [rolls] at inside
  simp only [ofIndex, index]
  omega

end Dice

namespace Rollout

open Backgammon.Random

/-! ## Games in a row -/

/-- **So many games in a row** have all remainders, each once. -/
theorem bijOn_mod (first count : Nat) :
    Set.BijOn (· % count) (Set.Ico first (first + count)) (Set.Iio count) := by
  have image : (Finset.Ico first (first + count)).image (· % count) = Finset.range count :=
    Nat.image_Ico_mod first count
  have injective : Set.InjOn (· % count) (Finset.Ico first (first + count) : Set Nat) := by
    refine Finset.card_image_iff.1 ?_
    rw [image, Finset.card_range, Nat.card_Ico, Nat.add_sub_cancel_left]
  have image := congrArg (fun s : Finset Nat => (s : Set Nat)) image
  simp only [Finset.coe_image, Finset.coe_Ico, Finset.coe_range] at image injective
  exact image ▸ injective.bijOn_image

/-- Numbers agree in one more digit. -/
theorem modEq_pow_succ_iff {b m n k : Nat} (same : m ≡ n [MOD b ^ k]) (pos : 0 < b) :
    m ≡ n [MOD b ^ (k + 1)] ↔ m / b ^ k ≡ n / b ^ k [MOD b] := by
  rw [Nat.ModEq, Nat.mod_pow_succ, Nat.mod_pow_succ, same, Nat.add_left_cancel_iff,
    Nat.mul_right_inj (Nat.pow_pos pos).ne']
  rfl

/-- **A list without repetition** has each of its members at one place. -/
theorem bijOn_getElem? {β : Type} {l : List β} (nodup : l.Nodup) (d : β) :
    Set.BijOn (fun i => l[i]?.getD d) (Set.Iio l.length) {x | x ∈ l} := by
  have place {i : Nat} (inside : i < l.length) : l[i]?.getD d = l[i] := by
    rw [List.getElem?_eq_getElem inside, Option.getD_some]
  refine ⟨fun i inside => ?_, fun i inside j inside' same => ?_, fun x mem => ?_⟩
  · change l[i]?.getD d ∈ l
    exact place inside ▸ List.getElem_mem _
  · simp only [place inside, place inside'] at same
    exact (nodup.getElem_inj_iff).1 same
  · obtain ⟨i, inside, rfl⟩ := List.getElem_of_mem mem
    exact ⟨i, inside, place inside⟩

namespace SeededDice

/-! ## Permutations -/

/-- **The permutations of the dice are permutations** of the rolls. -/
def Permutes (d : SeededDice) : Prop :=
  ∀ generation turn, (d.permutation generation turn).Perm rollIndices

theorem drawPermutations_perm (n : Nat) (k : Keystream) (drawn : Array (Array Nat))
    (perm : ∀ p ∈ drawn, p.Perm rollIndices) :
    ∀ p ∈ drawPermutations n k drawn, p.Perm rollIndices := by
  induction n generalizing k drawn with
  | zero => exact perm
  | succ n ih =>
    -- what is drawn is generalised: the shuffle is not to be carried out
    have shuffled := Keystream.shuffle_perm rollIndices k
    rw [drawPermutations]
    generalize k.shuffle rollIndices = draw at shuffled ⊢
    refine ih draw.2 _ fun p mem => ?_
    rcases Array.mem_push.1 mem with mem | rfl
    · exact perm p mem
    · exact shuffled

/-- **Seeded dice permute**, whatever is drawn from their stream. -/
theorem permutes_make (seed : UInt64) (rotate antithetic initialPosition : Bool) :
    (make seed rotate antithetic initialPosition).Permutes := by
  generalize made : make seed rotate antithetic initialPosition = d
  have drawn : ∀ p ∈ d.permutations, p.Perm rollIndices := by
    rw [← made, make]
    dsimp only
    split
    · generalize generations * rotatedTurns = count
      exact drawPermutations_perm count _ #[] nofun
    · exact fun p mem => nomatch mem
  intro generation turn
  rw [permutation, Array.getD_eq_getD_getElem?]
  cases entry : d.permutations[generation * rotatedTurns + turn]? with
  | none => exact .refl _
  | some p => exact drawn p (Array.mem_of_getElem? entry)

section

variable {d : SeededDice} (perm : d.Permutes) (generation turn : Nat)

include perm

theorem permutation_perm_range :
    (d.permutation generation turn).toList.Perm (List.range Dice.rolls) :=
  (perm generation turn).toList.trans (.of_eq (by rw [rollIndices, Array.toList_range]))

/-- **A permutation has each roll at one place.** -/
theorem bijOn_permutation :
    Set.BijOn (fun i => (d.permutation generation turn).getD i 0) (Set.Iio Dice.rolls)
      (Set.Iio Dice.rolls) := by
  have perm := permutation_perm_range perm generation turn
  have places := bijOn_getElem? (perm.nodup_iff.2 List.nodup_range) 0
  have members : {x | x ∈ (d.permutation generation turn).toList} = Set.Iio Dice.rolls := by
    ext x
    exact perm.mem_iff.trans List.mem_range
  rw [perm.length_eq, List.length_range, members] at places
  simpa only [Array.getD_eq_getD_getElem?, Array.getElem?_toList] using places

end

/-! ## Generation by generation -/

section

variable (d : SeededDice) (game turn : Nat)

/-- The index after so many generations: each permutes the next digit of the game, moved on by the index
so far. -/
def indexAfter : Nat → Nat
  | 0 => 0
  | g + 1 => (d.permutation g turn).getD ((game / Dice.rolls ^ g + indexAfter g) % Dice.rolls) 0

theorem rotatedIndex_eq : d.rotatedIndex game turn = d.indexAfter game turn (min generations (turn + 1)) := by
  rw [rotatedIndex]
  generalize min generations (turn + 1) = count
  induction count with
  | zero => rfl
  | succ g ih =>
    rw [List.range_succ, List.foldl_concat, ih]
    rfl

/-- On the first turns one more generation comes in with every turn. -/
theorem rotatedIndex_eq_indexAfter {turn : Nat} (early : turn < generations) :
    d.rotatedIndex game turn = d.indexAfter game turn (turn + 1) := by
  rw [rotatedIndex_eq, Nat.min_eq_right early]

variable {d} (perm : d.Permutes) {game} {game' : Nat}

include perm

theorem indexAfter_lt (g : Nat) : d.indexAfter game turn g < Dice.rolls := by
  cases g with
  | zero => exact Nat.succ_pos 35
  | succ g => exact (bijOn_permutation perm g turn).mapsTo (Nat.mod_lt _ (by decide))

theorem rotatedIndex_lt (game turn : Nat) : d.rotatedIndex game turn < Dice.rolls := by
  rw [rotatedIndex_eq]
  exact indexAfter_lt turn perm _

/-- **One more generation tells one more digit**: of games that agree so far, those have the same index
that agree in the next digit too. -/
theorem indexAfter_succ_eq_iff {g : Nat} (same : game ≡ game' [MOD Dice.rolls ^ g])
    (before : d.indexAfter game turn g = d.indexAfter game' turn g) :
    d.indexAfter game turn (g + 1) = d.indexAfter game' turn (g + 1) ↔
      game ≡ game' [MOD Dice.rolls ^ (g + 1)] := by
  have inside (n : Nat) : n % Dice.rolls ∈ Set.Iio Dice.rolls := Nat.mod_lt _ (by decide)
  rw [modEq_pow_succ_iff same (by decide), indexAfter, indexAfter, before,
    (bijOn_permutation perm g turn).injOn.eq_iff (inside _) (inside _)]
  exact ⟨Nat.ModEq.add_right_cancel' _, Nat.ModEq.add_right _⟩

theorem indexAfter_congr {g : Nat} (same : game ≡ game' [MOD Dice.rolls ^ g]) :
    d.indexAfter game turn g = d.indexAfter game' turn g := by
  induction g with
  | zero => rfl
  | succ g ih =>
    have earlier := Nat.ModEq.of_mul_right _ same
    exact (indexAfter_succ_eq_iff turn perm earlier (ih earlier)).2 same

/-- **The rolls of the first turns tell the game**, as far as so many digits go. -/
theorem rotatedIndex_eq_iff {k : Nat} (early : k ≤ generations) :
    (∀ turn < k, d.rotatedIndex game turn = d.rotatedIndex game' turn) ↔
      game ≡ game' [MOD Dice.rolls ^ k] := by
  induction k with
  | zero => exact iff_of_true nofun Nat.modEq_one
  | succ k ih =>
    rw [Nat.forall_lt_succ_right, ih (by omega), rotatedIndex_eq_indexAfter _ _ early,
      rotatedIndex_eq_indexAfter _ _ early]
    have digit (same : game ≡ game' [MOD Dice.rolls ^ k]) :=
      indexAfter_succ_eq_iff k perm same (indexAfter_congr k perm same)
    exact ⟨fun ⟨same, last⟩ => (digit same).1 last,
      fun same => ⟨same.of_mul_right _, (digit (same.of_mul_right _)).2 same⟩⟩

/-- **Every sequence of rolls comes up** on the first turns. -/
theorem exists_rotatedIndex {k : Nat} (early : k ≤ generations) {rolled : Nat → Nat}
    (inside : ∀ turn < k, rolled turn < Dice.rolls) :
    ∃ game, ∀ turn < k, d.rotatedIndex game turn = rolled turn := by
  induction k with
  | zero => exact ⟨0, nofun⟩
  | succ k ih =>
    obtain ⟨game, earlier⟩ := ih (by omega) fun turn before => inside turn (by omega)
    obtain ⟨place, place_lt, held⟩ :=
      (bijOn_permutation perm k k).surjOn (inside k k.lt_succ_self)
    -- the next digit undoes how far the index so far moves the games on
    let shift := d.indexAfter game k k
    let game' := game % Dice.rolls ^ k + Dice.rolls ^ k * (place + 35 * shift)
    have same : game' ≡ game [MOD Dice.rolls ^ k] := by
      rw [Nat.ModEq, Nat.add_mul_mod_self_left, Nat.mod_mod]
    have digit : game' / Dice.rolls ^ k = place + 35 * shift := by
      have pos : 0 < Dice.rolls ^ k := Nat.pow_pos (Nat.succ_pos 35)
      rw [Nat.add_mul_div_left _ _ pos, Nat.div_eq_of_lt (Nat.mod_lt _ pos), Nat.zero_add]
    have moved : (place + 35 * shift + shift) % Dice.rolls = place := by
      rw [Set.mem_Iio, Dice.rolls] at place_lt
      rw [Dice.rolls]
      omega
    refine ⟨game', Nat.forall_lt_succ_right.2 ⟨fun turn before => ?_, ?_⟩⟩
    · exact ((rotatedIndex_eq_iff perm (by omega)).2 same turn before).trans (earlier turn before)
    · rw [rotatedIndex_eq_indexAfter _ _ early, indexAfter, digit, indexAfter_congr k perm same, moved]
      exact held

end

/-! ## Openings -/

section

variable {d : SeededDice} (perm : d.Permutes)

include perm

theorem openings_perm :
    d.openings.Perm ((List.range Dice.rolls).filter fun j => !(Dice.ofIndex j).isDouble) :=
  (permutation_perm_range perm 0 0).filter _

/-- **Thirty games in a row open** with each roll that is no double once. -/
theorem bijOn_openingIndex (first : Nat) :
    Set.BijOn (fun game => Dice.ofIndex (d.openingIndex game)) (Set.Ico first (first + 30))
      {roll | roll.isValid ∧ !roll.isDouble} := by
  have perm := openings_perm perm
  have nodup : d.openings.Nodup := perm.nodup_iff.2 (List.nodup_range.filter _)
  have count : d.openings.length = 30 := perm.length_eq.trans (by decide)
  have places := bijOn_getElem? nodup 1
  rw [count] at places
  have indices : Set.BijOn d.openingIndex (Set.Ico first (first + 30)) {i | i ∈ d.openings} :=
    places.comp (bijOn_mod first 30)
  have mem_openings (i : Nat) : i ∈ d.openings ↔ i < Dice.rolls ∧ !(Dice.ofIndex i).isDouble := by
    rw [perm.mem_iff, List.mem_filter, List.mem_range]
  have rolls : Set.BijOn Dice.ofIndex {i | i ∈ d.openings} {roll | roll.isValid ∧ !roll.isDouble} := by
    refine ⟨fun i mem => ?_, fun i mem j mem' same => ?_, fun roll opening => ?_⟩
    · obtain ⟨inside, noDouble⟩ := (mem_openings i).1 mem
      exact ⟨Dice.isValid_ofIndex inside, noDouble⟩
    · rw [← Dice.index_ofIndex ((mem_openings i).1 mem).1, same,
        Dice.index_ofIndex ((mem_openings j).1 mem').1]
    · have index := Dice.ofIndex_index opening.1
      exact ⟨roll.index, (mem_openings _).2 ⟨Dice.index_lt opening.1, index.symm ▸ opening.2⟩, index⟩
  exact rolls.comp indices

end

/-! ## The dice of a game -/

/-- **The dice of a game**, none of them upside down. -/
def upright (d : SeededDice) (game : Nat) : DiceStream where
  dice := d
  game := game
  upsideDown := false
  turn := 0
  keystream := .ofSeed d.seed (UInt64.ofNat game)

end SeededDice

namespace DiceStream

theorem take_succ (s : DiceStream) (turns : Nat) :
    s.take (turns + 1) = s.next.1 :: s.next.2.take turns := rfl

/-- **Dice upside down** show the other sides of the same rolls. -/
theorem take_eq_map (s : DiceStream) (turns : Nat) :
    s.take turns = ({ s with upsideDown := false }.take turns).map
      (if s.upsideDown then Dice.underside else id) := by
  induction turns generalizing s with
  | zero => rfl
  | succ turns ih =>
    have roll : s.next.1 = (if s.upsideDown then Dice.underside else id)
        { s with upsideDown := false }.next.1 := by
      cases up : s.upsideDown <;> simp [next, nextIndex, up]
    rw [take_succ, take_succ, List.map_cons, ih s.next.2, roll]
    rfl

/-- **Rotated dice** follow the index of their game. -/
theorem take_eq_rotated (s : DiceStream) (rotate : s.dice.rotate = true)
    (anyPosition : s.dice.initialPosition = false) (upright : s.upsideDown = false) {turns : Nat}
    (early : s.turn + turns ≤ rotatedTurns) :
    s.take turns = (List.range' s.turn turns).map fun turn =>
      Dice.ofIndex (s.dice.rotatedIndex s.game turn) := by
  induction turns generalizing s with
  | zero => rfl
  | succ turns ih =>
    have index : s.nextIndex = (s.dice.rotatedIndex s.game s.turn, s.keystream) := by
      have before : s.turn < rotatedTurns := by omega
      simp [nextIndex, rotate, anyPosition, before]
    have roll : s.next.1 = Dice.ofIndex (s.dice.rotatedIndex s.game s.turn) := by
      simp [next, index, upright]
    have later : s.next.2.turn + turns ≤ rotatedTurns := by
      change s.turn + 1 + turns ≤ rotatedTurns
      omega
    rw [take_succ, ih s.next.2 rotate anyPosition upright later, roll]
    rfl

end DiceStream

namespace SeededDice

/-- **A trial throws the dice of its game**, upside down in the second trial of a pair. -/
theorem take_start (d : SeededDice) (trial turns : Nat) :
    (d.start trial).take turns =
      ((d.upright (if d.antithetic then trial / 2 else trial)).take turns).map
        (if d.antithetic && trial % 2 == 1 then Dice.underside else id) :=
  (d.start trial).take_eq_map turns

theorem take_upright {d : SeededDice} (rotate : d.rotate = true)
    (anyPosition : d.initialPosition = false) (game : Nat) {k : Nat} (early : k ≤ generations) :
    (d.upright game).take k = (List.range k).map fun turn =>
      Dice.ofIndex (d.rotatedIndex game turn) := by
  have early : 0 + k ≤ rotatedTurns := by
    rw [generations] at early
    rw [rotatedTurns]
    omega
  rw [List.range_eq_range']
  exact (d.upright game).take_eq_rotated rotate anyPosition rfl early

/-- **So many games in a row have each sequence of first rolls once.** -/
theorem bijOn_take {d : SeededDice} (perm : d.Permutes) (rotate : d.rotate = true)
    (anyPosition : d.initialPosition = false) (first : Nat) {k : Nat} (early : k ≤ generations) :
    Set.BijOn (fun game => (d.upright game).take k) (Set.Ico first (first + Dice.rolls ^ k))
      {rolled | rolled.length = k ∧ ∀ roll ∈ rolled, roll.isValid} := by
  simp only [take_upright rotate anyPosition _ early]
  have window := bijOn_mod first (Dice.rolls ^ k)
  refine ⟨fun game _ => ⟨by simp, fun roll mem => ?_⟩, fun game inside game' inside' same => ?_,
    fun rolled ⟨count, valid⟩ => ?_⟩
  · obtain ⟨turn, -, rfl⟩ := List.mem_map.1 mem
    exact Dice.isValid_ofIndex (rotatedIndex_lt perm ..)
  · refine window.injOn inside inside' ((rotatedIndex_eq_iff perm early).1 fun turn before => ?_)
    have rolls := congrArg Dice.index (List.map_inj_left.1 same turn (List.mem_range.2 before))
    rwa [Dice.index_ofIndex (rotatedIndex_lt perm ..), Dice.index_ofIndex (rotatedIndex_lt perm ..)]
      at rolls
  · let index (turn : Nat) : Nat := (rolled[turn]?.map Dice.index).getD 0
    have index_eq {turn : Nat} (before : turn < rolled.length) : index turn = rolled[turn].index := by
      simp [index, before]
    have index_lt (turn : Nat) (before : turn < k) : index turn < Dice.rolls := by
      rw [index_eq (count.symm ▸ before)]
      exact Dice.index_lt (valid _ (List.getElem_mem _))
    obtain ⟨game, rolls⟩ := exists_rotatedIndex perm early index_lt
    obtain ⟨game', inside, same⟩ := window.surjOn (Nat.mod_lt game (Nat.pow_pos (Nat.succ_pos 35)))
    have rolls' := (rotatedIndex_eq_iff perm early).2 same
    refine ⟨game', inside, List.ext_getElem (by simp [count]) fun turn before before' => ?_⟩
    rw [List.getElem_map, List.getElem_range, rolls' turn (count ▸ before'), rolls turn (count ▸ before'),
      index_eq before', Dice.ofIndex_index (valid _ (List.getElem_mem _))]

/-- **The opening of a game** that starts from the initial position. -/
theorem next_upright {d : SeededDice} (rotate : d.rotate = true)
    (initialPosition : d.initialPosition = true) (game : Nat) :
    (d.upright game).next.1 = Dice.ofIndex (d.openingIndex game) := by
  simp [upright, DiceStream.next, DiceStream.nextIndex, rotate, initialPosition]

/-- **Rotated dice are stratified.**  Trials throw the dice of their games, upside down in the second of an
antithetic pair; of those, so many games in a row have each sequence of first rolls once, and from the initial
position thirty games in a row have each opening once. -/
theorem stratified (seed : UInt64) (antithetic : Bool) :
    (∀ initialPosition trial turns,
      let d := make seed true antithetic initialPosition
      (d.start trial).take turns =
        ((d.upright (if antithetic then trial / 2 else trial)).take turns).map
          (if antithetic && trial % 2 == 1 then Dice.underside else id)) ∧
    (∀ first k, k ≤ 6 →
      Set.BijOn (fun game => ((make seed true antithetic false).upright game).take k)
        (Set.Ico first (first + 36 ^ k)) {rolled | rolled.length = k ∧ ∀ roll ∈ rolled, roll.isValid}) ∧
    ∀ first, Set.BijOn (fun game => ((make seed true antithetic true).upright game).next.1)
      (Set.Ico first (first + 30)) {roll | roll.isValid ∧ !roll.isDouble} := by
  refine ⟨fun initialPosition trial turns => take_start ..,
    fun first k early => bijOn_take (permutes_make _ _ _ _) rfl rfl first early, fun first => ?_⟩
  simp only [next_upright (d := make seed true antithetic true) rfl rfl]
  exact bijOn_openingIndex (permutes_make _ _ _ _) first

/-- Pairs of rolls, of 1296 games in a row from the eighth on. -/
theorem stratified_pairs :
    2 ≤ 6 ∧ Set.BijOn (fun game => ((make 5 true false false).upright game).take 2)
      (Set.Ico 7 (7 + 36 ^ 2)) {rolled | rolled.length = 2 ∧ ∀ roll ∈ rolled, roll.isValid} := by
  obtain ⟨-, rolls, -⟩ := stratified 5 false
  exact ⟨by decide, rolls 7 2 (by decide)⟩

end SeededDice

end Rollout

end Backgammon
