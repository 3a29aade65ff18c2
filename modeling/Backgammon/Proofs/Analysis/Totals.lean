import Backgammon.Analysis.Statistics
import Mathlib.Algebra.BigOperators.Group.List.Basic
import Mathlib.Algebra.Group.Defs
import Mathlib.Algebra.Order.Ring.Rat

/-!
# Proofs/Analysis/Totals — what is counted can be put together in any order

Over exact numbers all counters and sums of the statistics are commutative monoids, and `merge` obeys
the same laws.

* `addCommMonoidOfGet` — what is read component by component is a monoid when its components are.
* Instances of `AddCommMonoid`, from an amount up to the statistics as a whole.
* `Statistics.merge_comm`, `merge_assoc`, `merge_empty`, `empty_merge` — the laws of `merge`.
* `Bracketing` — a way to put parts together; `Bracketing.merged_eq_sum` — only the parts matter.
* `Statistics.merge_in_any_order` — in whichever order and with whichever brackets.
-/

namespace Backgammon

/-- **What is read component by component** is a commutative monoid when its components are. -/
abbrev addCommMonoidOfGet {ι M T : Type} [AddCommMonoid M] [Add T] [Zero T] (get : T → ι → M)
    (ext_get : ∀ a b : T, (∀ i, get a i = get b i) → a = b)
    (get_add : ∀ (a b : T) (i : ι), get (a + b) i = get a i + get b i)
    (get_zero : ∀ i, get 0 i = 0) : AddCommMonoid T where
  add_assoc a b c := ext_get _ _ fun i => by
    rw [get_add, get_add, get_add, get_add, add_assoc]
  add_comm a b := ext_get _ _ fun i => by
    rw [get_add, get_add, add_comm]
  zero_add a := ext_get _ _ fun i => by
    rw [get_add, get_zero, zero_add]
  add_zero a := ext_get _ _ fun i => by
    rw [get_add, get_zero, add_zero]
  nsmul := nsmulRec

instance {β : Type} [Zero β] : Zero (PerPlayer β) := ⟨.splat 0⟩

instance {β : Type} [AddCommMonoid β] : AddCommMonoid (PerPlayer β) :=
  addCommMonoidOfGet PerPlayer.get (fun _ _ => PerPlayer.ext_get) PerPlayer.get_add
    (PerPlayer.get_splat 0)

namespace Analysis

/-! ## Counters and sums -/

theorem Amount.ext_get {a b : Amount Rat} (h : ∀ u, a.get u = b.get u) : a = b := by
  obtain ⟨⟩ := a
  obtain ⟨⟩ := b
  simp only [mk.injEq]
  exact ⟨h .normalized, h .unnormalized⟩

instance : Zero (Amount Rat) := ⟨.zero⟩

instance : AddCommMonoid (Amount Rat) :=
  addCommMonoidOfGet Amount.get (fun _ _ => Amount.ext_get) Amount.get_add (by rintro ⟨⟩ <;> rfl)

theorem SkillCounts.ext_get {c d : SkillCounts} (h : ∀ s, c.get s = d.get s) : c = d := by
  obtain ⟨⟩ := c
  obtain ⟨⟩ := d
  simp only [mk.injEq]
  exact ⟨h .veryBad, h .bad, h .doubtful, h .none⟩

instance : Zero SkillCounts := ⟨{}⟩

instance : AddCommMonoid SkillCounts :=
  addCommMonoidOfGet SkillCounts.get (fun _ _ => SkillCounts.ext_get) SkillCounts.get_add
    (by rintro ⟨⟩ <;> rfl)

theorem LuckCounts.ext_get {c d : LuckCounts} (h : ∀ l, c.get l = d.get l) : c = d := by
  obtain ⟨⟩ := c
  obtain ⟨⟩ := d
  simp only [mk.injEq]
  exact ⟨h .veryBad, h .bad, h .none, h .good, h .veryGood⟩

instance : Zero LuckCounts := ⟨{}⟩

instance : AddCommMonoid LuckCounts :=
  addCommMonoidOfGet LuckCounts.get (fun _ _ => LuckCounts.ext_get) LuckCounts.get_add
    (by rintro ⟨⟩ <;> rfl)

attribute [ext] ErrorTotal ResultSummary

instance : Zero (ErrorTotal Rat) := ⟨⟨0, 0⟩⟩

instance : AddCommMonoid (ErrorTotal Rat) where
  add_assoc a b c := ErrorTotal.ext (add_assoc ..) (add_assoc ..)
  add_comm a b := ErrorTotal.ext (add_comm ..) (add_comm ..)
  zero_add a := ErrorTotal.ext (zero_add _) (zero_add _)
  add_zero a := ErrorTotal.ext (add_zero _) (add_zero _)
  nsmul := nsmulRec

instance : Zero (CubeErrors Rat) := ⟨.zero⟩

instance : AddCommMonoid (CubeErrors Rat) :=
  addCommMonoidOfGet CubeErrors.get (fun _ _ => CubeErrors.ext_get) CubeErrors.get_add
    (CubeErrors.get_ofFn fun _ => ⟨0, .zero⟩)

instance : Zero (ResultSummary Rat) := ⟨.zero⟩

instance : AddCommMonoid (ResultSummary Rat) where
  add_assoc a b c := ResultSummary.ext (add_assoc ..) (add_assoc ..) (add_assoc ..)
  add_comm a b := ResultSummary.ext (add_comm ..) (add_comm ..) (add_comm ..)
  zero_add a := ResultSummary.ext (zero_add _) (zero_add _) (zero_add _)
  add_zero a := ResultSummary.ext (add_zero _) (add_zero _) (add_zero _)
  nsmul := nsmulRec

/-! ## The statistics as a whole -/

namespace Statistics

variable (t u v : Statistics Rat)

theorem merge_comm : t.merge u = u.merge t := by
  simp only [merge, Bool.or_comm, add_comm]

theorem merge_assoc : (t.merge u).merge v = t.merge (u.merge v) := by
  simp only [merge, Bool.or_assoc, add_assoc]

/-- Every counter of the empty statistics is zero. -/
@[simp] theorem merge_empty : t.merge empty = t := by
  obtain ⟨⟩ := t
  simp only [merge, empty, Bool.or_false, Nat.add_zero, mk.injEq, true_and]
  refine ⟨?_, ?_, ?_, ?_, ?_, ?_, ?_, ?_, ?_, ?_, ?_, ?_, ?_, ?_, ?_⟩
  all_goals exact add_zero _

@[simp] theorem empty_merge : empty.merge t = t := (merge_comm ..).trans (merge_empty t)

instance : Add (Statistics Rat) := ⟨merge⟩

instance : Zero (Statistics Rat) := ⟨empty⟩

instance : AddCommMonoid (Statistics Rat) where
  add_assoc := merge_assoc
  add_comm := merge_comm
  zero_add := empty_merge
  add_zero := merge_empty
  nsmul := nsmulRec

end Statistics

/-! ## Parts put together -/

/-- **A way to put parts together**, two at a time. -/
inductive Bracketing (α : Type) where
  | nothing
  | part (t : Statistics α)
  | join (first second : Bracketing α)

namespace Bracketing

variable {α : Type}

/-- The parts from left to right. -/
def parts : Bracketing α → List (Statistics α)
  | nothing => []
  | part t => [t]
  | join first second => first.parts ++ second.parts

/-- What the parts come to when they are merged in this way. -/
def merged [Scalar α] : Bracketing α → Statistics α
  | nothing => .empty
  | part t => t
  | join first second => first.merged.merge second.merged

/-- **Brackets do not matter.** -/
theorem merged_eq_sum (b : Bracketing Rat) : b.merged = b.parts.sum := by
  induction b with
  | nothing => rfl
  | part t => exact List.sum_singleton.symm
  | join first second ih ih' =>
    rw [parts, List.sum_append, ← ih, ← ih']
    rfl

end Bracketing

namespace Statistics

/-- **Merging is a commutative monoid**, whatever the counters hold.  However parts are ordered and
bracketed, they come to what they do when merged one after the other. -/
theorem merge_in_any_order :
    (∀ t u v : Statistics Rat, t.merge (u.merge v) = (t.merge u).merge v) ∧
      (∀ t u : Statistics Rat, t.merge u = u.merge t) ∧
      (∀ t : Statistics Rat, t.merge empty = t ∧ empty.merge t = t) ∧
      ∀ (b : Bracketing Rat) (parts : List (Statistics Rat)), b.parts.Perm parts →
        b.merged = parts.foldl merge empty := by
  refine ⟨fun t u v => (merge_assoc t u v).symm, merge_comm,
    fun t => ⟨merge_empty t, empty_merge t⟩, fun b parts perm => ?_⟩
  calc b.merged
    _ = b.parts.sum := b.merged_eq_sum
    _ = parts.sum := perm.sum_eq
    _ = parts.foldl merge empty := List.sum_eq_foldl

/-- Three parts of a match, the last of which stands first. -/
theorem three_parts_merge :
    let part (n : Nat) (luck : Rat) : Statistics Rat :=
      { empty with diceAnalysed := true, games := n, openLuck := ⟨luck, 0⟩ }
    let parts := [part 1 (1 / 2), part 2 0, part 3 (-1 / 3)]
    let b := Bracketing.join (.part (part 3 (-1 / 3))) (.join (.part (part 1 (1 / 2))) (.part (part 2 0)))
    b.parts.Perm parts ∧ b.merged = parts.foldl merge empty ∧ b.merged = part 6 (1 / 6) := by
  intro part parts b
  have perm : b.parts.Perm parts := by decide +kernel
  obtain ⟨-, -, -, any_order⟩ := merge_in_any_order
  exact ⟨perm, any_order b parts perm, by decide +kernel⟩

end Statistics

end Analysis

end Backgammon
