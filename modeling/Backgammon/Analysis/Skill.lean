import Backgammon.Analysis.Options

/-!
# Analysis/Skill — classes of play and classes of luck

* `Skill` — the class of an equity loss, worst first; `Context.skill` reads off the magnitude alone.
* `Luck` — the class of the luck of a roll, unluckiest first; `Context.luck` reads the sign too, with
  thresholds of its own on either side.
-/

namespace Backgammon.Analysis

/-- **Class of a play**, worst first. -/
inductive Skill where
  | veryBad
  | bad
  | doubtful
  | none
deriving DecidableEq, Repr

/-- **Class of a roll**, unluckiest first. -/
inductive Luck where
  | veryBad
  | bad
  | none
  | good
  | veryGood
deriving DecidableEq, Repr

namespace Skill

/-- All classes in order. -/
def all : List Skill := [veryBad, bad, doubtful, none]

/-- Place in the order. -/
def rank : Skill → Nat
  | veryBad => 0
  | bad => 1
  | doubtful => 2
  | none => 3

instance : LE Skill := ⟨fun a b => a.rank ≤ b.rank⟩

instance (a b : Skill) : Decidable (a ≤ b) := inferInstanceAs (Decidable (a.rank ≤ b.rank))

end Skill

namespace Luck

/-- All classes in order. -/
def all : List Luck := [veryBad, bad, none, good, veryGood]

/-- Place in the order. -/
def rank : Luck → Nat
  | veryBad => 0
  | bad => 1
  | none => 2
  | good => 3
  | veryGood => 4

instance : LE Luck := ⟨fun a b => a.rank ≤ b.rank⟩

instance (a b : Luck) : Decidable (a ≤ b) := inferInstanceAs (Decidable (a.rank ≤ b.rank))

/-- Distance from an ordinary roll, in either direction. -/
def magnitude : Luck → Nat
  | none => 0
  | bad | good => 1
  | veryBad | veryGood => 2

end Luck

variable {α : Type} [Scalar α]

/-- **The class of an equity loss**, by its magnitude: the worst class whose threshold it exceeds. -/
def Context.skill (ctx : Context α) (loss : α) : Skill :=
  let exceeds := ctx.options.comparison.exceeds (Scalar.abs loss)
  if exceeds ctx.options.skill.veryBad then .veryBad
  else if exceeds ctx.options.skill.bad then .bad
  else if exceeds ctx.options.skill.doubtful then .doubtful
  else .none

/-- **The class of an amount of luck**: the sign picks the side, the magnitude the class. -/
def Context.luck (ctx : Context α) (luck : α) : Luck :=
  let exceeds := ctx.options.comparison.exceeds
  if 0 < luck then
    if exceeds luck ctx.options.luck.veryGood then .veryGood
    else if exceeds luck ctx.options.luck.good then .good
    else .none
  else if luck < 0 then
    if exceeds (-luck) ctx.options.luck.veryBad then .veryBad
    else if exceeds (-luck) ctx.options.luck.bad then .bad
    else .none
  else .none

end Backgammon.Analysis
