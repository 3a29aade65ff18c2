import Backgammon.Dice
import Backgammon.Random.Draw

/-!
# Rollout/SeededDice — the dice of the trials of a rollout

All trials draw from streams of one seed.  With **rotation** the first turns of consecutive games are
stratified over the 36 rolls: turn `t` of a game walks through `min (t + 1) 6` generations of seeded
permutations, so that every 36 games in a row see each first roll once, every 36² each pair of rolls,
and so on.  With **antithetic pairing** trial `2 k + 1` replays trial `2 k` with every die upside
down.

* `SeededDice.make` — the dice of a seed, with their permutations.
* `drawOpening` — a first roll that is not rotated: rolls until there is no double (`drawOpening_eq`).
* `SeededDice.start`, `DiceStream.next` — the rolls of one trial.
-/

namespace Backgammon.Rollout

open Backgammon.Random

/-- Generations of permutations. -/
def generations : Nat := 6

/-- Turns for which there are permutations. -/
def rotatedTurns : Nat := 128

/-- The indices of the ordered rolls, in order. -/
def rollIndices : Array Nat := Array.range Dice.rolls

/-- **Seeded dice.** -/
structure SeededDice where
  seed : UInt64
  rotate : Bool
  antithetic : Bool
  /-- Trials start a game, so the first roll is no double. -/
  initialPosition : Bool
  /-- The permutations, generation by generation and turn by turn. -/
  permutations : Array (Array Nat)

namespace SeededDice

/-- So many permutations in a row. -/
def drawPermutations : Nat → Keystream → Array (Array Nat) → Array (Array Nat)
  | 0, _, drawn => drawn
  | n + 1, k, drawn =>
    let (p, k) := k.shuffle rollIndices
    drawPermutations n k (drawn.push p)

/-- The number of the stream from which the permutations are drawn. -/
def permutationStream : UInt64 := 0 - 1

/-- **The dice of a seed.** -/
def make (seed : UInt64) (rotate antithetic initialPosition : Bool) : SeededDice where
  seed := seed
  rotate := rotate
  antithetic := antithetic
  initialPosition := initialPosition
  permutations :=
    if rotate then
      drawPermutations (generations * rotatedTurns) (.ofSeed seed permutationStream) #[]
    else #[]

/-- The permutation of a generation for a turn. -/
def permutation (d : SeededDice) (generation turn : Nat) : Array Nat :=
  d.permutations.getD (generation * rotatedTurns + turn) rollIndices

/-- **The rotated roll** of a game at a turn: each generation permutes the games of a block of
`36 ^ generation`, moved on by the index so far. -/
def rotatedIndex (d : SeededDice) (game turn : Nat) : Nat :=
  (List.range (min generations (turn + 1))).foldl
    (fun j g => (d.permutation g turn).getD ((game / Nat.pow Dice.rolls g + j) % Dice.rolls) 0) 0

/-- The rolls that are no doubles, in the order of the first permutation. -/
def openings (d : SeededDice) : List Nat :=
  (d.permutation 0 0).toList.filter fun j => !(Dice.ofIndex j).isDouble

/-- The rotated first roll of a game that starts from the initial position. -/
def openingIndex (d : SeededDice) (game : Nat) : Nat := d.openings[game % 30]?.getD 1

end SeededDice

/-- The index of a roll that is no double. -/
abbrev OpeningIndex := { j : Nat // j < Dice.rolls ∧ (Dice.ofIndex j).isDouble = false }

instance : Nonempty OpeningIndex := ⟨1, by decide⟩

/-- One roll for the first turn: the stream after it when it is a double. -/
def tryOpening (k : Keystream) : Keystream ⊕ OpeningIndex × Keystream :=
  let drawn := k.below64 Dice.rolls
  if double : (Dice.ofIndex drawn.1).isDouble then .inl drawn.2
  else .inr (⟨drawn.1, Keystream.below64_lt (by decide) k, eq_false_of_ne_true double⟩, drawn.2)

/-- **A first roll** from the stream: rolls are drawn until there is no double. -/
def drawOpening : Keystream → OpeningIndex × Keystream := repeatM (m := Id) tryOpening

/-- A roll that is no double is the first roll, and after a double another one is drawn. -/
theorem drawOpening_eq (k : Keystream) : drawOpening k = (tryOpening k).elim drawOpening id :=
  repeatM_eq_elim _ k

/-- **The dice of one trial**: the game it belongs to, the turn, and whether the dice are upside
down. -/
structure DiceStream where
  dice : SeededDice
  game : Nat
  upsideDown : Bool
  turn : Nat
  keystream : Keystream

/-- **The dice of a trial.**  An antithetic pair of trials shares a game. -/
def SeededDice.start (d : SeededDice) (trial : Nat) : DiceStream :=
  let game := if d.antithetic then trial / 2 else trial
  { dice := d
    game := game
    upsideDown := d.antithetic && trial % 2 == 1
    turn := 0
    keystream := .ofSeed d.seed (UInt64.ofNat game) }

namespace DiceStream

/-- The index of the next roll and the stream after it. -/
def nextIndex (s : DiceStream) : Nat × Keystream :=
  if s.dice.initialPosition && s.turn == 0 then
    if s.dice.rotate then (s.dice.openingIndex s.game, s.keystream)
    else
      let (j, keystream) := drawOpening s.keystream
      (j.1, keystream)
  else if s.dice.rotate && decide (s.turn < rotatedTurns) then
    (s.dice.rotatedIndex s.game s.turn, s.keystream)
  else s.keystream.below64 Dice.rolls

/-- **The next roll.** -/
def next (s : DiceStream) : Dice × DiceStream :=
  let (j, keystream) := s.nextIndex
  let roll := Dice.ofIndex j
  (if s.upsideDown then roll.underside else roll, { s with turn := s.turn + 1, keystream })

/-- The first `n` rolls. -/
def take : Nat → DiceStream → List Dice
  | 0, _ => []
  | n + 1, s =>
    let (roll, s) := s.next
    roll :: take n s

end DiceStream

end Backgammon.Rollout
