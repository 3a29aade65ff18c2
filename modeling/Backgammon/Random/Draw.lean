import Backgammon.Random.Keystream

/-!
# Random/Draw — random numbers below a bound, and random permutations

    word ──× n──▸ high half : low half
                    │           │
                  number      in the zone, or another word is drawn

The low half must fall into a zone that makes all numbers equally likely.  Words are drawn until one does;
from a stream without such a word they would be drawn for ever, and then no more is known of the number
than its type says.

* `Below`, `Keystream.tryWord` — a number below `n`, and what one word of any width does for it.
* `Keystream.below` — words until one does (`below_eq`).
* `Keystream.below64`, `Keystream.below32` — the same from words of either width.
* `Keystream.shuffle` — a permutation of an array (`shuffle_perm`).
-/

namespace Backgammon.Random

/-- **A number below `n`**, if there is one. -/
abbrev Below (n : Nat) := { x : Nat // 0 < n → x < n }

instance (n : Nat) : Nonempty (Below n) := ⟨0, id⟩

/-- The last of the low halves with which a word will do. -/
def zone (width n : Nat) : Nat := n <<< (width - 1 - n.log2) - 1

/-- The high half of a word times `n`. -/
def highHalf {width : Nat} (n : Nat) (word : BitVec width) : Below n :=
  ⟨word.toNat * n / Nat.pow 2 width, fun pos =>
    Nat.div_lt_of_lt_mul (Nat.mul_lt_mul_of_pos_right word.isLt pos)⟩

/-- A loop ends with the result of a step that has one, and goes on from the state after any other. -/
theorem repeatM_eq_elim {σ β : Type} [Nonempty β] (step : σ → σ ⊕ β) (s : σ) :
    repeatM (m := Id) step s = (step s).elim (repeatM (m := Id) step) id := by
  rw [repeatM_eq_of_monadTail, repeatM.body]
  cases step s <;> rfl

namespace Keystream

instance : Nonempty Keystream := ⟨.ofSeed 0 0⟩

/-- The next double word, bit by bit. -/
def bits64 (k : Keystream) : BitVec 64 × Keystream :=
  let (word, k) := k.next64
  (word.toBitVec, k)

/-- The next word, bit by bit. -/
def bits32 (k : Keystream) : BitVec 32 × Keystream :=
  let (word, k) := k.next32
  (word.toBitVec, k)

/-- One word: the number below `n` it gives when it is in the zone, or else the stream after it. -/
def tryWord {width : Nat} (draw : Keystream → BitVec width × Keystream) (n : Nat) (k : Keystream) :
    Keystream ⊕ Below n × Keystream :=
  let (word, k) := draw k
  if word.toNat * n % Nat.pow 2 width ≤ zone width n then .inr (highHalf n word, k) else .inl k

/-- **A number below `n`** from words of some width, drawn until one is in the zone. -/
def below {width : Nat} (draw : Keystream → BitVec width × Keystream) (n : Nat) :
    Keystream → Below n × Keystream :=
  repeatM (m := Id) (tryWord draw n)

/-- **A number below `n`** from words of 64 bits. -/
def below64 (n : Nat) (k : Keystream) : Nat × Keystream :=
  let (x, k) := below bits64 n k
  (x.1, k)

/-- **A number below `n`** from words of 32 bits. -/
def below32 (n : Nat) (k : Keystream) : Nat × Keystream :=
  let (x, k) := below bits32 n k
  (x.1, k)

/-- Swaps every place from `i` down with one at or below it. -/
def shuffleFrom {β : Type} : Nat → Array β → Keystream → Array β × Keystream
  | 0, xs, k => (xs, k)
  | i + 1, xs, k =>
    let (j, k) := below32 (i + 2) k
    shuffleFrom i (xs.swapIfInBounds (i + 1) j) k

/-- **A random permutation** of an array. -/
def shuffle {β : Type} (xs : Array β) (k : Keystream) : Array β × Keystream :=
  shuffleFrom (xs.size - 1) xs k

/-- **How a draw goes on**: it ends with a word in the zone, and starts again after any other. -/
theorem below_eq {width : Nat} (draw : Keystream → BitVec width × Keystream) (n : Nat) (k : Keystream) :
    below draw n k = (tryWord draw n k).elim (below draw n) id :=
  repeatM_eq_elim _ k

theorem below64_lt {n : Nat} (pos : 0 < n) (k : Keystream) : (k.below64 n).1 < n :=
  (below bits64 n k).1.2 pos

/-- Swapping two places, or none when one of them does not exist, only moves what is there. -/
theorem swapIfInBounds_perm {β : Type} (xs : Array β) (i j : Nat) :
    (xs.swapIfInBounds i j).Perm xs := by
  unfold Array.swapIfInBounds
  split
  · split
    · exact Array.swap_perm _ _
    · exact .refl xs
  · exact .refl xs

theorem shuffleFrom_perm {β : Type} (i : Nat) (xs : Array β) (k : Keystream) :
    (shuffleFrom i xs k).1.Perm xs := by
  induction i generalizing xs k with
  | zero => exact .refl xs
  | succ i ih =>
    rw [shuffleFrom]
    generalize below32 (i + 2) k = draw
    exact (ih _ draw.2).trans (swapIfInBounds_perm xs _ _)

/-- **A shuffled array** holds what it held before. -/
theorem shuffle_perm {β : Type} (xs : Array β) (k : Keystream) : (shuffle xs k).1.Perm xs :=
  shuffleFrom_perm _ xs k

end Keystream

end Backgammon.Random
