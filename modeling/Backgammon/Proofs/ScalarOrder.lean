import Backgammon.Proofs.Doubles.Differences
import Backgammon.Proofs.Rollout.Leader
import Mathlib.Algebra.Order.Ring.Rat

/-!
# Proofs/ScalarOrder — numbers in their order

A rule that ranks values, or takes the greatest of them, may meet infinities, two zeros, and differences
that are rounded.  What it may rely on, as long as all values are numbers, holds of doubles as it does of
exact numbers.

* `Scalar.LawfulOrder` — the laws: ranks refine the order, which is total, and rounding does not upset it.
* `Scalar.maximum_spec` — the greatest of some numbers is one of them, and none is greater.
-/

namespace Backgammon

/-- **The laws of order** among numbers. -/
class Scalar.LawfulOrder (α : Type) [Scalar α] : Prop extends Scalar.LawfulRank α where
  le_of_rankLE : ∀ {x y : α}, isNaN x = false → isNaN y = false → rankLE x y = true → x ≤ y
  le_trans : ∀ {x y z : α}, isNaN x = false → isNaN y = false → isNaN z = false → x ≤ y → y ≤ z →
    x ≤ z
  lt_iff : ∀ {x y : α}, isNaN x = false → isNaN y = false → (x < y ↔ ¬y ≤ x)
  beq_iff : ∀ {x y : α}, isNaN x = false → isNaN y = false → ((x == y) = true ↔ x ≤ y ∧ y ≤ x)
  /-- Numbers that compare as equal are the same unless they are zeros. -/
  eq_of_beq : ∀ {x y : α}, (x == y) = true → ¬(y == 0) = true → x = y
  lowest_le : ∀ {l x : α}, lowest? = some l → isNaN x = false → isNaN l = false ∧ l ≤ x
  /-- All that lies nearer to a value is as close to it. -/
  sub_le_of_le : ∀ {best x y t : α}, isNaN best = false → isNaN x = false → isNaN y = false →
    ¬largest < t → y ≤ x → x ≤ best → best - y ≤ t → best - x ≤ t

instance : Scalar.LawfulOrder Rat where
  le_of_rankLE _ _ h := of_decide_eq_true h
  le_trans _ _ _ := Rat.le_trans
  lt_iff _ _ := Rat.not_le.symm
  beq_iff {x y} _ _ := by
    rw [beq_iff_eq]
    exact Rat.le_antisymm_iff
  eq_of_beq equal _ := beq_iff_eq.1 equal
  lowest_le h := nomatch h
  sub_le_of_le {best x y t} _ _ _ _ yx _ near := (sub_le_sub_left yx best).trans near

open Doubles in
instance : Scalar.LawfulOrder Float where
  le_of_rankLE hx hy h := (le_iff_place hx hy).2 (place_le_of_rank_le hx hy (of_decide_eq_true h))
  le_trans hx hy hz hxy hyz := (le_iff_place hx hz).2
    (((le_iff_place hx hy).1 hxy).trans ((le_iff_place hy hz).1 hyz))
  lt_iff hx hy := by
    rw [lt_iff_place hx hy, le_iff_place hy hx, not_le]
  beq_iff hx hy := by
    rw [beq_iff_place hx hy, le_iff_place hx hy, le_iff_place hy hx]
    exact le_antisymm_iff
  eq_of_beq := Doubles.eq_of_beq
  lowest_le {l x} h hx := by
    obtain rfl : -1 / 0 = l := Option.some.inj h
    have lowest : view (-1 / 0) = .infinity .negative := by rfl
    refine ⟨by rfl, (le_iff_place (by rfl) hx).2 ?_⟩
    rw [lowest]
    exact (place_mem_Icc hx).1
  sub_le_of_le hbest hx hy limited yx xbest near := by
    have finite : (17976931348623157e292 : Float).isFinite = true := by decide +kernel
    have number : (17976931348623157e292 : Float).isNaN = false := by decide +kernel
    have below_top := (bounded_view finite).place_lt.2
    refine Doubles.sub_le_of_le hbest hx hy (not_le.1 fun infinite => limited ?_) yx xbest near
    exact (lt_iff_place number (isNaN_of_le near)).2 (below_top.trans_le infinite)

namespace Scalar

variable {α : Type} [Scalar α] [LawfulOrder α] {x y : α}

theorem le_total (hx : isNaN x = false) (hy : isNaN y = false) : x ≤ y ∨ y ≤ x :=
  (LawfulRank.total x y).imp (LawfulOrder.le_of_rankLE hx hy) (LawfulOrder.le_of_rankLE hy hx)

theorem le_refl (hx : isNaN x = false) : x ≤ x := (le_total hx hx).elim id id

theorem le_of_lt (hx : isNaN x = false) (hy : isNaN y = false) (h : x < y) : x ≤ y :=
  (le_total hx hy).resolve_right ((LawfulOrder.lt_iff hx hy).1 h)

theorem le_of_not_lt (hx : isNaN x = false) (hy : isNaN y = false) (h : ¬x < y) : y ≤ x := by
  rwa [LawfulOrder.lt_iff hx hy, not_not] at h

theorem le_or_lt (hx : isNaN x = false) (hy : isNaN y = false) : x ≤ y ∨ y < x := by
  rw [LawfulOrder.lt_iff hy hx]
  exact Decidable.em (x ≤ y)

theorem beq_refl (hx : isNaN x = false) : (x == x) = true :=
  (LawfulOrder.beq_iff hx hx).2 ⟨le_refl hx, le_refl hx⟩

/-- The smaller of two numbers. -/
theorem min_cases (hx : isNaN x = false) (hy : isNaN y = false) :
    min x y = x ∧ x ≤ y ∨ min x y = y ∧ y ≤ x := by
  rw [min, hx]
  by_cases less : y < x
  · exact .inr ⟨by simp [less], le_of_lt hy hx less⟩
  · exact .inl ⟨by simp [less], le_of_not_lt hy hx less⟩

/-- The greater of two numbers. -/
theorem max_cases (hx : isNaN x = false) (hy : isNaN y = false) :
    max x y = x ∧ y ≤ x ∨ max x y = y ∧ x ≤ y := by
  rw [max, hx]
  by_cases less : x < y
  · exact .inr ⟨by simp [less], le_of_lt hx hy less⟩
  · exact .inl ⟨by simp [less], le_of_not_lt hx hy less⟩

theorem foldl_max_spec (first : α) (rest : List α) (numbers : ∀ x ∈ first :: rest, isNaN x = false) :
    rest.foldl max first ∈ first :: rest ∧ ∀ x ∈ first :: rest, x ≤ rest.foldl max first := by
  induction rest using List.reverseRecOn with
  | nil =>
    refine ⟨List.mem_singleton_self _, fun x hx => ?_⟩
    rw [List.mem_singleton.1 hx]
    exact le_refl (numbers first List.mem_cons_self)
  | append_singleton rest next ih =>
    rw [← List.cons_append, List.forall_mem_append] at numbers
    obtain ⟨olds, next_number⟩ := numbers
    replace next_number := next_number next (List.mem_singleton_self _)
    obtain ⟨mem, upper⟩ := ih olds
    rw [List.foldl_append, List.foldl_cons, List.foldl_nil, ← List.cons_append]
    generalize rest.foldl max first = best at *
    rcases max_cases (olds best mem) next_number with ⟨eq, le⟩ | ⟨eq, le⟩ <;> rw [eq]
    · exact ⟨List.mem_append_left _ mem,
        List.forall_mem_append.2 ⟨upper, List.forall_mem_singleton.2 le⟩⟩
    · refine ⟨List.mem_append_right _ (List.mem_singleton_self _),
        List.forall_mem_append.2 ⟨fun x hx => ?_, ?_⟩⟩
      · exact LawfulOrder.le_trans (olds x hx) (olds best mem) next_number (upper x hx) le
      · exact List.forall_mem_singleton.2 (le_refl next_number)

/-- **The greatest of numbers is one of them**, and none is greater. -/
theorem maximum_spec (first : α) (rest : List α) (numbers : ∀ x ∈ first :: rest, isNaN x = false) :
    maximum first rest ∈ first :: rest ∧ ∀ x ∈ first :: rest, x ≤ maximum first rest := by
  have best := foldl_max_spec first rest numbers
  rw [maximum]
  simp only [numbers _ best.1, Bool.false_eq_true, if_false]
  exact best

end Scalar

end Backgammon
