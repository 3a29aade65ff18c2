import Backgammon.Analysis.Rating
import Backgammon.Proofs.Checks
import Backgammon.Proofs.ScalarSigns

/-!
# Proofs/Analysis/Grading — grades in the order of what they grade

    very bad   bad   doubtful   none           the place of a class is how many thresholds
       0        1        2        3            come before the first that is exceeded

Each class is found by going through a list of thresholds until one is exceeded.  A value that exceeds all
that another exceeds stops no later, whatever the thresholds are: it is for their number alone that a
class has its place.  Only what zero is graded depends on the thresholds, which must be positive.

* `Context.rank_skill`, `Context.rank_luck_of_pos`, `Context.rank_luck_of_neg`, `rank_rating` — places as
  indices into lists of thresholds.
* `Context.skill_antitone`, `Context.luck_monotone`, `rating_antitone` — grades in order.
* `grades_monotone` — all of them together, for settings that are allowed.
-/

namespace Backgammon.Analysis

open Scalar LawfulSign

variable {α : Type} [Scalar α] {ctx : Context α} {x y t : α}

/-! ## Places in lists of thresholds -/

/-- The thresholds of skill, worst class first. -/
def SkillThresholds.descending (s : SkillThresholds α) : List α := [s.veryBad, s.bad, s.doubtful]

/-- **The place of a class of play** is that of the first threshold exceeded. -/
theorem Context.rank_skill (ctx : Context α) (x : α) :
    (ctx.skill x).rank =
      ctx.options.skill.descending.findIdx (ctx.options.comparison.exceeds (abs x)) := by
  rw [skill, SkillThresholds.descending]
  simp only [List.findIdx_cons, List.findIdx_nil, cond_eq_ite]
  repeat' split
  all_goals rfl

/-- On the lucky side the place is counted from the luckiest class… -/
theorem Context.rank_luck_of_pos (ctx : Context α) (pos : 0 < x) :
    (ctx.luck x).rank = 4 -
      [ctx.options.luck.veryGood, ctx.options.luck.good].findIdx
        (ctx.options.comparison.exceeds x) := by
  rw [luck, if_pos pos]
  simp only [List.findIdx_cons, List.findIdx_nil, cond_eq_ite]
  repeat' split
  all_goals rfl

/-- …and on the other side from the unluckiest. -/
theorem Context.rank_luck_of_neg (ctx : Context α) (not_pos : ¬0 < x) (neg : x < 0) :
    (ctx.luck x).rank =
      [ctx.options.luck.veryBad, ctx.options.luck.bad].findIdx
        (ctx.options.comparison.exceeds (-x)) := by
  rw [luck, if_neg not_pos, if_pos neg]
  simp only [List.findIdx_cons, List.findIdx_nil, cond_eq_ite]
  repeat' split
  all_goals rfl

theorem Context.luck_of_not (not_pos : ¬0 < x) (not_neg : ¬x < 0) : ctx.luck x = .none := by
  rw [luck, if_neg not_pos, if_neg not_neg]

/-- Of classes in descending order, the place of the first whose bound is not reached. -/
theorem rank_find? (x : α) (bounds : List (RatingCategory × α))
    (descending : bounds.map (·.1.rank) = (List.range bounds.length).reverse.map (· + 1)) :
    (((bounds.find? fun b => decide (x < b.2)).map Prod.fst).getD .undefined).rank =
      bounds.length - (bounds.map Prod.snd).findIdx fun t => decide (x < t) := by
  induction bounds with
  | nil => rfl
  | cons b bounds ih =>
    rw [List.length_cons, List.range_succ, List.reverse_append] at descending
    obtain ⟨head, tail⟩ := List.cons.inj descending
    rw [List.map_cons, List.find?_cons, List.findIdx_cons]
    cases decide (x < b.2) with
    | true => exact head
    | false => exact (ih tail).trans (Nat.add_sub_add_right ..).symm

/-- **The place of an error rate** is counted from the best class, in bounds that it does not meet. -/
theorem rank_rating (x : α) :
    (rating x).rank =
      8 - ((ratingBounds : List (_ × α)).map Prod.snd).findIdx fun t => decide (x < t) :=
  rank_find? x ratingBounds rfl

/-- Luck per move is graded like the luck of a roll ten times as large. -/
theorem Context.rank_luckRating (ctx : Context α) (x : α) :
    (ctx.luckRating x).rank = (ctx.luck (x * 10)).rank := by
  rw [luckRating]
  cases ctx.luck (x * 10) <;> rfl

/-- A roll that is not unlucky is graded no worse than an ordinary one, and a roll that is not lucky no
better. -/
theorem Context.luck_sides (ctx : Context α) (x : α) :
    (¬x < 0 → 2 ≤ (ctx.luck x).rank) ∧ (¬0 < x → (ctx.luck x).rank ≤ 2) := by
  by_cases pos : 0 < x
  · refine ⟨fun _ => ?_, fun not_pos => absurd pos not_pos⟩
    rw [rank_luck_of_pos ctx pos]
    change 4 - [ctx.options.luck.veryGood, ctx.options.luck.good].length ≤ _
    exact Nat.sub_le_sub_left List.findIdx_le_length 4
  by_cases neg : x < 0
  · refine ⟨fun not_neg => absurd neg not_neg, fun _ => ?_⟩
    rw [rank_luck_of_neg ctx pos neg]
    exact List.findIdx_le_length
  · rw [luck_of_not pos neg]
    exact ⟨fun _ => le_rfl, fun _ => le_rfl⟩

/-! ## Grades in order -/

/-- Allowed options have positive thresholds of skill. -/
theorem Options.skill_pos_of_validate {o : Options α} (valid : o.validate = .ok ()) :
    ∀ t ∈ o.skill.descending, 0 < t := by
  obtain ⟨doubtful, valid⟩ := passed_of_bind valid
  obtain ⟨bad, valid⟩ := passed_of_bind valid
  obtain ⟨veryBad, -⟩ := passed_of_bind valid
  simp only [SkillThresholds.descending, List.forall_mem_cons]
  exact ⟨pos_of_checkPositive veryBad, pos_of_checkPositive bad, pos_of_checkPositive doubtful,
    nofun⟩

variable [LawfulSign α]

/-- What a magnitude exceeds, a greater one exceeds too, under either comparison. -/
theorem Comparison.exceeds_mono (c : Comparison) (le : x ≤ y) (h : c.exceeds x t = true) :
    c.exceeds y t = true := by
  cases c with
  | strict => exact decide_eq_true (lt_of_lt_of_le (of_decide_eq_true h) le)
  | inclusive => exact decide_eq_true (le_of_le_of_le (of_decide_eq_true h) le)

/-- Zero exceeds no positive threshold. -/
theorem Comparison.exceeds_zero (c : Comparison) (zero : (x == 0) = true) (pos : 0 < t) :
    c.exceeds x t = false := by
  have below : x < t := lt_of_le_of_lt (le_of_beq zero).1 pos
  cases c with
  | strict => exact decide_eq_false (not_lt_of_lt below)
  | inclusive => exact decide_eq_false fun above => not_lt_of_le above below

/-- **A greater loss is graded no better.** -/
theorem Context.skill_antitone (ctx : Context α) (le : abs x ≤ abs y) : ctx.skill y ≤ ctx.skill x := by
  change (ctx.skill y).rank ≤ (ctx.skill x).rank
  rw [rank_skill, rank_skill]
  exact List.findIdx_le_findIdx fun t _ => Comparison.exceeds_mono _ le

/-- **A luckier roll is graded no unluckier**, across zero too and whatever the two pairs of thresholds
are. -/
theorem Context.luck_monotone (ctx : Context α) (le : x ≤ y) : ctx.luck x ≤ ctx.luck y := by
  change (ctx.luck x).rank ≤ (ctx.luck y).rank
  by_cases pos : 0 < x
  · rw [rank_luck_of_pos ctx pos, rank_luck_of_pos ctx (lt_of_lt_of_le pos le)]
    exact Nat.sub_le_sub_left (List.findIdx_le_findIdx fun t _ => Comparison.exceeds_mono _ le) 4
  by_cases neg : y < 0
  · rw [rank_luck_of_neg ctx pos (lt_of_le_of_lt le neg),
      rank_luck_of_neg ctx (not_lt_of_lt neg) neg]
    exact List.findIdx_le_findIdx fun t _ => Comparison.exceeds_mono _ (neg_le_neg le)
  -- otherwise an ordinary roll lies between the two
  · exact ((ctx.luck_sides x).2 pos).trans ((ctx.luck_sides y).1 neg)

/-- **A higher error rate is graded no better.** -/
theorem rating_antitone (le : x ≤ y) : rating y ≤ rating x := by
  change (rating y).rank ≤ (rating x).rank
  rw [rank_rating, rank_rating]
  refine Nat.sub_le_sub_left (List.findIdx_le_findIdx fun t _ below => ?_) 8
  exact decide_eq_true (lt_of_le_of_lt le (of_decide_eq_true below))

/-- **What loses nothing is no mistake**, if the options are allowed. -/
theorem Context.skill_zero (valid : ctx.options.validate = .ok ()) (zero : (x == 0) = true) :
    ctx.skill x = .none := by
  have place : (ctx.skill x).rank = Skill.none.rank := by
    rw [rank_skill]
    exact List.findIdx_eq_length_of_false fun t ht =>
      Comparison.exceeds_zero _ (abs_beq_zero zero) (Options.skill_pos_of_validate valid t ht)
  revert place
  cases ctx.skill x <;> decide

/-- **A roll that changes nothing is an ordinary one.** -/
theorem Context.luck_zero (ctx : Context α) (zero : (x == 0) = true) : ctx.luck x = .none := by
  obtain ⟨le, ge⟩ := le_of_beq zero
  exact luck_of_not (not_lt_of_le le) (not_lt_of_le ge)

/-- **Grades are in the order of what they grade.**  In both modes of comparison and for all thresholds, a
play that loses more is graded no better, a luckier roll no unluckier, and so is its rating; a higher error
rate is rated no better.  Under options that are allowed, zero is neither a mistake nor luck. -/
theorem grades_monotone (ctx : Context α) (x y : α) :
    (abs x ≤ abs y → ctx.skill y ≤ ctx.skill x) ∧
      (x ≤ y → ctx.luck x ≤ ctx.luck y ∧ (ctx.luckRating x).rank ≤ (ctx.luckRating y).rank ∧
        rating y ≤ rating x) ∧
      (ctx.options.validate = .ok () → (x == 0) = true → ctx.skill x = .none ∧ ctx.luck x = .none) := by
  refine ⟨ctx.skill_antitone, fun le => ⟨ctx.luck_monotone le, ?_, rating_antitone le⟩,
    fun valid zero => ⟨Context.skill_zero valid zero, ctx.luck_zero zero⟩⟩
  rw [ctx.rank_luckRating, ctx.rank_luckRating]
  exact ctx.luck_monotone (mul_ten_le le)

/-- Thresholds that coincide, and to which a value at a threshold is beyond it. -/
def coincident : Context Float where
  options :=
    { Options.standard with
      skill := ⟨0.04, 0.08, 0.08⟩, luck := ⟨0.6, 0.3, 0.5, 0.5⟩, comparison := .inclusive }
  met := ⟨fun _ _ _ => 0.5⟩

theorem grades_coincident :
    coincident.options.validate = .ok () ∧
      coincident.skill 0.1 ≤ coincident.skill (-0.08) ∧
      coincident.luck (-0.3) ≤ coincident.luck 0.5 ∧
      rating (0.05 : Float) ≤ rating (-0.3 : Float) ∧
      coincident.skill (-0) = .none := by
  have valid : coincident.options.validate = .ok () := by rfl
  have losses := grades_monotone coincident (-0.08) 0.1
  have lucks := grades_monotone coincident (-0.3) 0.5
  have rates := grades_monotone coincident (-0.3) 0.05
  have zeros := grades_monotone coincident (-0) 0
  exact ⟨valid, losses.1 (by decide +kernel), (lucks.2.1 (by decide +kernel)).1,
    (rates.2.1 (by decide +kernel)).2.2, (zeros.2.2 valid (by decide +kernel)).1⟩

end Backgammon.Analysis
