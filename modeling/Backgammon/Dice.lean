/-!
# Dice — a roll of two dice

* `Dice.ofIndex` lists the 36 ordered rolls row by row, `Dice.underside` turns every die upside down.
* `Dice.distinct` are the 21 rolls up to order, each with the number of ordered rolls it stands for;
  the numbers sum to 36.
-/

namespace Backgammon

/-- **A roll**: the faces of two dice, in the order thrown. -/
structure Dice where
  first : Nat
  second : Nat
deriving DecidableEq, Repr

namespace Dice

/-- The number of ordered rolls. -/
def rolls : Nat := 36

/-- **The ordered roll of an index**, row by row of the first die.  A face is held in one byte, so
the rows wrap after 256. -/
def ofIndex (i : Nat) : Dice := ⟨i / 6 % 256 + 1, i % 6 + 1⟩

def isDouble (d : Dice) : Bool := d.first == d.second

/-- Both faces are on a die. -/
def isValid (d : Dice) : Bool :=
  decide (1 ≤ d.first ∧ d.first ≤ 6) && decide (1 ≤ d.second ∧ d.second ≤ 6)

/-- **The roll underneath**: opposite faces of a die sum to seven. -/
def underside (d : Dice) : Dice := ⟨7 - d.first, 7 - d.second⟩

/-- The roll with its dice in the other order. -/
def swap (d : Dice) : Dice := ⟨d.second, d.first⟩

/-- The two dice show the same faces, in either order. -/
def sameFaces (d e : Dice) : Bool := d == e || d == e.swap

/-- How many ordered rolls show these faces. -/
def weight (d : Dice) : Nat := if d.isDouble then 1 else 2

/-- **The 21 distinct rolls**, lower die first, in lexicographic order. -/
def distinct : List Dice :=
  (List.range' 1 6).flatMap fun a => (List.range' a (7 - a)).map fun b => ⟨a, b⟩

/-- The distinct rolls that are no doubles. -/
def distinctNonDoubles : List Dice := distinct.filter fun d => !d.isDouble

example : distinct.length = 21 := by decide

/-- The number of ordered rolls that some rolls stand for together. -/
def totalWeight (ds : List Dice) : Nat := ds.foldl (fun n d => n + d.weight) 0

theorem isValid_ofIndex {i : Nat} (h : i < rolls) : (ofIndex i).isValid = true := by
  have h6 : i / 6 < 6 := Nat.div_lt_of_lt_mul h
  have hm : i % 6 < 6 := Nat.mod_lt _ (by decide)
  simp only [ofIndex, isValid, Nat.mod_eq_of_lt (Nat.lt_trans h6 (by decide : 6 < 256))]
  simp only [Bool.and_eq_true, decide_eq_true_eq]
  omega

theorem isValid_underside {d : Dice} (h : d.isValid = true) : d.underside.isValid = true := by
  obtain ⟨a, b⟩ := d
  simp [isValid, underside] at h ⊢
  omega

end Dice

end Backgammon
