import Backgammon.Proofs.Rollout.Elimination
import Mathlib.Data.List.Induction

/-!
# Proofs/Rollout/Leader — who leads

    place    0    1   ⋯   i   ⋯   n
    mean     ≤    ≤   ⋯   ▲   ⋯   <

Among the contenders that have results, the leader is the last of those with the greatest mean.  Means
are compared by their rank among all values, so that there is a greatest one even where some mean is
not a number.

* `Scalar.LawfulRank` — the rank is a total preorder, as it is for doubles and for exact numbers.
* `IsLeader` — a contender leads: none ranks higher, and those after it rank lower.
* `StoppingRule.leader?_eq_some_iff` — the leader that a check finds is the one that leads.
* `StoppingRule.exists_isLeader_iff` — somebody leads once somebody has results.
-/

namespace Backgammon

/-! ## Ranks -/

/-- **The rank is a total preorder.** -/
class Scalar.LawfulRank (α : Type) [Scalar α] : Prop where
  total : ∀ x y : α, Scalar.rankLE x y = true ∨ Scalar.rankLE y x = true
  trans : ∀ {x y z : α}, Scalar.rankLE x y = true → Scalar.rankLE y z = true →
    Scalar.rankLE x z = true

instance : Scalar.LawfulRank Float where
  total x y := by
    simpa [Scalar.rankLE] using Nat.le_total (DoubleBits.rank x) (DoubleBits.rank y)
  trans {x y z} hxy hyz :=
    decide_eq_true (Nat.le_trans (of_decide_eq_true hxy) (of_decide_eq_true hyz))

instance : Scalar.LawfulRank Rat where
  total x y := by simpa [Scalar.rankLE] using Rat.le_total
  trans {x y z} hxy hyz :=
    decide_eq_true (Rat.le_trans (of_decide_eq_true hxy) (of_decide_eq_true hyz))

namespace Rollout

variable {α : Type} [Scalar α]

/-! ## The last of the greatest -/

/-- **A choice of the greater, made all along a list**, ends with the last of the greatest: nothing
before it is greater, and all after it is less. -/
theorem foldl_greater_eq {β : Type} {le : β → β → Bool} {f : β → β → β}
    (choice : ∀ x y, f x y = if le x y then y else x)
    (total : ∀ x y, le x y = true ∨ le y x = true)
    (trans : ∀ {x y z}, le x y = true → le y z = true → le x z = true) (first : β) (rest : List β) :
    ∃ before after, first :: rest = before ++ rest.foldl f first :: after ∧
      (∀ x ∈ before, le x (rest.foldl f first) = true) ∧
      ∀ x ∈ after, le (rest.foldl f first) x = false := by
  induction rest using List.reverseRecOn with
  | nil => exact ⟨[], [], rfl, by simp, by simp⟩
  | append_singleton rest next ih =>
    obtain ⟨before, after, split_eq, le_best, best_lt⟩ := ih
    rw [List.foldl_append, List.foldl_cons, List.foldl_nil, choice]
    generalize rest.foldl f first = best at *
    cases better : le best next with
    | false =>
      refine ⟨before, after ++ [next], ?_, le_best, ?_⟩
      · rw [← List.cons_append, split_eq, List.append_assoc]
        rfl
      · intro x hx
        rcases List.mem_append.1 hx with old | new
        · exact best_lt x old
        · rw [List.mem_singleton.1 new]
          exact better
    | true =>
      refine ⟨first :: rest, [], by simp, ?_, by simp⟩
      have below_best : ∀ x ∈ first :: rest, le x best = true := by
        intro x hx
        rw [split_eq] at hx
        rcases List.mem_append.1 hx with old | later
        · exact le_best x old
        · rcases List.mem_cons.1 later with rfl | later
          · exact (total x x).elim id id
          · exact (total x best).resolve_right (ne_true_of_eq_false (best_lt x later))
      exact fun x hx => trans (below_best x hx) better

/-! ## The leader -/

variable {key : Component} {field : List (Contender α)} {i j : Nat} {l k : Contender α}

/-- **A contender leads**: it has results, nobody with results ranks higher, and those after it rank
lower. -/
structure IsLeader (key : Component) (field : List (Contender α)) (i : Nat) (l : Contender α) :
    Prop where
  place : field[i]? = some l
  played : 0 < l.moments.count
  greatest : ∀ (j : Nat) (d : Contender α), field[j]? = some d → 0 < d.moments.count →
    Scalar.rankLE (d.moments.mean.get key) (l.moments.mean.get key) = true
  last : ∀ (j : Nat) (d : Contender α), field[j]? = some d → 0 < d.moments.count → i < j →
    Scalar.rankLE (l.moments.mean.get key) (d.moments.mean.get key) = false

/-- Of two leaders neither stands before the other. -/
theorem IsLeader.not_lt (hi : IsLeader key field i l) (hj : IsLeader key field j k) : ¬i < j := by
  intro before
  have lower := hi.last j k hj.place hj.played before
  rw [hj.greatest i l hi.place hi.played] at lower
  exact nomatch lower

/-- **Only one contender leads.** -/
theorem IsLeader.place_eq (hi : IsLeader key field i l) (hj : IsLeader key field j k) : i = j :=
  Nat.le_antisymm (Nat.not_lt.1 (hj.not_lt hi)) (Nat.not_lt.1 (hi.not_lt hj))

namespace StoppingRule

/-- The contenders that have results, with their places. -/
def played (field : List (Contender α)) : List (Contender α × Nat) :=
  field.zipIdx.filter fun x => decide (0 < x.1.moments.count)

/-- The greater of two contenders, the second of equals. -/
def greater (key : Component) (x y : Contender α × Nat) : Contender α × Nat :=
  if Scalar.rankLE (x.1.moments.mean.get key) (y.1.moments.mean.get key) then y else x

theorem leader?_of_nil (h : played field = []) : leader? key field = none := by
  rw [played] at h
  simp only [leader?]
  rw [h]

theorem leader?_of_cons {first : Contender α × Nat} {rest : List (Contender α × Nat)}
    (h : played field = first :: rest) :
    leader? key field = some (rest.foldl (greater key) first).2 := by
  rw [played] at h
  simp only [leader?]
  rw [h]
  rfl

omit [Scalar α] in
theorem mem_played : (l, i) ∈ played field ↔ field[i]? = some l ∧ 0 < l.moments.count := by
  rw [played, List.mem_filter, List.mem_zipIdx_iff_getElem?, decide_eq_true_iff]

omit [Scalar α] in
/-- They stand in the order of their places. -/
theorem pairwise_played (field : List (Contender α)) :
    (played field).Pairwise fun x y => x.2 < y.2 := by
  refine List.Pairwise.filter _ (List.pairwise_map.1 ?_)
  rw [List.zipIdx_map_snd]
  exact List.pairwise_lt_range'

/-- Nobody is found to lead only where nobody has results. -/
theorem count_eq_zero_of_leader? (h : leader? key field = none) {d : Contender α} (hd : d ∈ field) :
    d.moments.count = 0 := by
  obtain ⟨j, hj⟩ := List.mem_iff_getElem?.1 hd
  cases some_played : played field with
  | nil =>
    by_contra results
    have mem := mem_played.2 ⟨hj, Nat.pos_of_ne_zero results⟩
    rw [some_played] at mem
    exact nomatch mem
  | cons first rest => exact nomatch h.symm.trans (leader?_of_cons some_played)

variable [Scalar.LawfulRank α]

/-- The leader that is found leads. -/
theorem exists_isLeader_of_leader? (h : leader? key field = some i) :
    ∃ l, IsLeader key field i l := by
  cases some_played : played field with
  | nil => exact nomatch h.symm.trans (leader?_of_nil some_played)
  | cons first rest =>
    let lower (x y : Contender α × Nat) : Bool :=
      Scalar.rankLE (x.1.moments.mean.get key) (y.1.moments.mean.get key)
    have total (x y : Contender α × Nat) : lower x y = true ∨ lower y x = true :=
      Scalar.LawfulRank.total _ _
    obtain ⟨before, after, split_eq, le_best, best_lt⟩ :=
      foldl_greater_eq (f := greater key) (fun _ _ => rfl) total Scalar.LawfulRank.trans first rest
    have found := Option.some.inj (h.symm.trans (leader?_of_cons some_played))
    rw [← some_played] at split_eq
    generalize rest.foldl (greater key) first = best at *
    obtain ⟨l, place⟩ := best
    obtain rfl : i = place := found
    have in_order := pairwise_played field
    rw [split_eq] at in_order
    have mem {d : Contender α} {j : Nat} :
        field[j]? = some d ∧ 0 < d.moments.count ↔ (d, j) ∈ before ++ (l, i) :: after := by
      rw [← split_eq, mem_played]
    obtain ⟨at_place, results⟩ := mem.2 (List.mem_append_right before List.mem_cons_self)
    refine ⟨l, at_place, results, ?_, ?_⟩
    · intro j d hd pos
      rcases List.mem_append.1 (mem.1 ⟨hd, pos⟩) with old | later
      · exact le_best _ old
      · rcases List.mem_cons.1 later with same | later
        · rw [(Prod.mk.inj same).1]
          exact (total (l, i) (l, i)).elim id id
        · exact (total (d, j) (l, i)).resolve_right (ne_true_of_eq_false (best_lt _ later))
    · intro j d hd pos behind
      rcases List.mem_append.1 (mem.1 ⟨hd, pos⟩) with old | later
      · have ahead := (List.pairwise_append.1 in_order).2.2 _ old _ List.mem_cons_self
        exact absurd ahead (Nat.lt_asymm behind)
      · rcases List.mem_cons.1 later with same | later
        · exact absurd (Prod.mk.inj same).2 (Nat.ne_of_gt behind)
        · exact best_lt _ later

/-- **Somebody leads once somebody has results.** -/
theorem exists_isLeader_iff :
    (∃ i l, IsLeader key field i l) ↔ ∃ d ∈ field, 0 < d.moments.count := by
  constructor
  · rintro ⟨i, l, leads⟩
    exact ⟨l, List.mem_of_getElem? leads.place, leads.played⟩
  · rintro ⟨d, hd, pos⟩
    cases found : leader? key field with
    | none => exact absurd (count_eq_zero_of_leader? found hd) (Nat.ne_of_gt pos)
    | some i => exact ⟨i, exists_isLeader_of_leader? found⟩

/-- **The leader that a check finds is the one that leads.** -/
theorem leader?_eq_some_iff : leader? key field = some i ↔ ∃ l, IsLeader key field i l := by
  refine ⟨exists_isLeader_of_leader?, ?_⟩
  rintro ⟨l, leads⟩
  cases found : leader? key field with
  | none =>
    exact absurd (count_eq_zero_of_leader? found (List.mem_of_getElem? leads.place))
      (Nat.ne_of_gt leads.played)
  | some j =>
    obtain ⟨k, leads'⟩ := exists_isLeader_of_leader? found
    rw [leads'.place_eq leads]

end StoppingRule

end Rollout

end Backgammon
