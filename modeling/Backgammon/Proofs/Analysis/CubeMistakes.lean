import Backgammon.Proofs.Analysis.CubeValue
import Backgammon.Proofs.Checks
import Mathlib.Algebra.Order.Ring.Rat
import Mathlib.Algebra.Order.Group.Abs

/-!
# Proofs/Analysis/CubeMistakes — what a cube action costs

Over exact numbers an action costs what its line falls short of the best one, and it is a mistake when
that is more than the epsilon.

* `regret` — what an action costs against a verdict; `cost_of_mistakeFor` — mistakes cost more than the
  epsilon.
* `Ruling.optimal_eq`, `Ruling.answered` — the best line of a verdict is the one that it recommends, and
  its answer to a double is the better one for the opponent.
* `mistakes_of_verdict` — what a verdict recommends is no mistake, and mistakes exclude each other.
-/

namespace Backgammon

/-! ## Exact numbers -/

/-- Exact numbers have the minimum and the maximum of their order. -/
theorem Scalar.min_rat (x y : Rat) : Scalar.min x y = Min.min x y := by
  rcases Scalar.min_cases (x := x) (y := y) rfl rfl with ⟨eq, le⟩ | ⟨eq, le⟩
  · rw [eq, min_eq_left le]
  · rw [eq, min_eq_right le]

theorem Scalar.max_rat (x y : Rat) : Scalar.max x y = Max.max x y := by
  rcases Scalar.max_cases (x := x) (y := y) rfl rfl with ⟨eq, le⟩ | ⟨eq, le⟩
  · rw [eq, max_eq_left le]
  · rw [eq, max_eq_right le]

/-- The magnitude of an exact number is its absolute value. -/
theorem Scalar.abs_rat (x : Rat) : Scalar.abs x = |x| := by
  change (if x < 0 then -x else x) = |x|
  split
  next neg => exact (abs_of_neg neg).symm
  next nonneg => exact (abs_of_nonneg (not_lt.1 nonneg)).symm

namespace CubeLines

variable (c : CubeLines Rat)

theorem comparable_rat : c.Comparable := ⟨rfl, rfl, rfl⟩

/-- Over exact numbers a double is worth the lesser of a take and a pass. -/
theorem response_eq_min : c.response = min c.doubleTake c.doublePass := Scalar.min_rat _ _

end CubeLines

/-! ## Options that are allowed -/

namespace Analysis

/-- Allowed options have a positive threshold for close decisions and an epsilon that is not
negative. -/
theorem Options.limits_of_validate {o : Options Rat} (valid : o.validate = .ok ()) :
    0 < o.closeCube ∧ 0 ≤ o.equityEpsilon := by
  -- both are checked after the thresholds of skill and of luck, and their orders
  obtain ⟨-, valid⟩ := passed_of_bind valid
  obtain ⟨-, valid⟩ := passed_of_bind valid
  obtain ⟨-, valid⟩ := passed_of_bind valid
  obtain ⟨-, valid⟩ := passed_of_guard valid
  obtain ⟨-, valid⟩ := passed_of_bind valid
  obtain ⟨-, valid⟩ := passed_of_bind valid
  obtain ⟨-, valid⟩ := passed_of_bind valid
  obtain ⟨-, valid⟩ := passed_of_bind valid
  obtain ⟨-, valid⟩ := passed_of_guard valid
  obtain ⟨close, valid⟩ := passed_of_bind valid
  obtain ⟨range, -⟩ := passed_of_bind valid
  exact ⟨pos_of_checkPositive close, not_lt.1 (isNumber_of_checkRange range).2.1⟩

theorem Options.closeCube_pos {o : Options Rat} (valid : o.validate = .ok ()) : 0 < o.closeCube :=
  (limits_of_validate valid).1

theorem Options.equityEpsilon_nonneg {o : Options Rat} (valid : o.validate = .ok ()) :
    0 ≤ o.equityEpsilon :=
  (limits_of_validate valid).2

/-! ## Costs -/

/-- **What an action costs** against a verdict: the player on roll is held against the best line, the
opponent against the other answer. -/
def regret (c : CubeLines Rat) (v : CubeVerdict Rat) : CubeAction → Rat
  | .noDouble => v.optimal - c.noDouble
  | .double => v.optimal - min c.doubleTake c.doublePass
  | .take => c.doubleTake - c.doublePass
  | .pass => c.doublePass - c.doubleTake

variable {ctx : Context Rat} {c : CubeLines Rat} {s : Stakes} {v : CubeVerdict Rat}

/-- The cost of an action that may be a mistake. -/
theorem cost_of_candidateError {action : CubeAction} {e : CubeError Rat}
    (candidate : candidateError c v action = some e) : e.cost = regret c v action := by
  cases action with
  | noDouble =>
    rw [candidateError] at candidate
    split at candidate
    · exact nomatch candidate
    · obtain rfl := Option.some.inj candidate
      rfl
  | double =>
    obtain rfl := Option.some.inj candidate
    exact congrArg (v.optimal - ·) c.response_eq_min
  | take | pass =>
    obtain rfl := Option.some.inj candidate
    rfl

/-- **A mistake costs more than the epsilon.** -/
theorem cost_of_mistakeFor {action : CubeAction} {e : CubeError Rat}
    (mistake : ctx.mistakeFor c v action = some e) :
    ctx.options.equityEpsilon < e.cost ∧ e.cost = regret c v action := by
  obtain ⟨candidate, costly⟩ := Option.filter_eq_some_iff.1 mistake
  exact ⟨of_decide_eq_true costly, cost_of_candidateError candidate⟩

/-- An action that costs no more than the epsilon is no mistake. -/
theorem mistakeFor_eq_none {action : CubeAction}
    (cheap : regret c v action ≤ ctx.options.equityEpsilon) : ctx.mistakeFor c v action = none := by
  cases found : ctx.mistakeFor c v action with
  | none => rfl
  | some e =>
    obtain ⟨costly, cost⟩ := cost_of_mistakeFor found
    exact absurd (cost ▸ costly) (not_lt.2 cheap)

/-! ## The recommended line -/

/-- **The best line of a verdict is the one that it recommends.** -/
theorem Ruling.optimal_eq (ruling : Ruling ctx c s v) :
    v.optimal = if v.decision.shouldDouble then c.response else c.noDouble := by
  cases ruling with
  | dead unavailable advice => rw [advice.optimal_eq, advice.shouldDouble_eq, if_neg (by decide)]
  | spoilt spoilt eq => rw [eq]; rfl
  | cash cash eq =>
    have turned : (initialOrRe s .doublePass .redoublePass).shouldDouble = true :=
      initialOrRe_cases (P := fun d => d.shouldDouble = true) s rfl rfl
    rw [eq, turned, if_pos rfl, c.response_eq_min, min_eq_right cash.passed.le]
  | double le same answered advice =>
    rw [advice.optimal_eq, advice.shouldDouble_eq, if_pos rfl, beq_iff_eq.1 same]
  | playOn lt answered advice => rw [advice.optimal_eq, advice.shouldDouble_eq, if_neg (by decide)]

/-- **The answer of a verdict is the worse of the two** for the doubler. -/
theorem Ruling.answered (ruling : Ruling ctx c s v) {answer : CubeAction}
    (proper : v.decision.properResponse = some answer) : c.AnsweredBy answer := by
  cases ruling with
  | dead unavailable advice => exact nomatch advice.properResponse_eq.symm.trans proper
  | spoilt spoilt eq =>
    rw [eq] at proper
    obtain rfl := Option.some.inj proper
    exact spoilt.taken.le
  | cash cash eq =>
    have passed : (initialOrRe s .doublePass .redoublePass).properResponse = some .pass :=
      initialOrRe_cases (P := fun d => d.properResponse = some .pass) s rfl rfl
    rw [eq] at proper
    obtain rfl := Option.some.inj (passed.symm.trans proper)
    exact cash.passed.le
  | double _ _ answered advice | playOn lt answered advice =>
    obtain rfl := Option.some.inj (advice.properResponse_eq.symm.trans proper)
    exact answered

/-- Optional doubles are doubles. -/
theorem CubeDecision.shouldDouble_of_isOptional {d : CubeDecision} (optional : d.isOptional = true) :
    d.shouldDouble = true := by
  revert optional
  cases d <;> first | exact fun _ => rfl | exact nofun

/-- Numbers that count as equal are no further apart than the epsilon. -/
theorem Context.sub_le_of_isEqual {a b : Rat} (equal : ctx.isEqual a b = true) :
    a - b ≤ ctx.options.equityEpsilon ∧ b - a ≤ ctx.options.equityEpsilon := by
  have near : Scalar.abs (a - b) ≤ ctx.options.equityEpsilon := of_decide_eq_true equal
  rw [Scalar.abs_rat] at near
  exact ⟨(le_abs_self _).trans near, neg_sub a b ▸ (neg_le_abs _).trans near⟩

/-- **An optional double is worth as much as none**, but for the epsilon. -/
theorem Ruling.sub_le_of_optional (ruling : Ruling ctx c s v)
    (optional : v.decision.isOptional = true) :
    v.optimal - c.noDouble ≤ ctx.options.equityEpsilon := by
  have turned := CubeDecision.shouldDouble_of_isOptional optional
  cases ruling with
  | dead unavailable advice | playOn lt answered advice =>
    exact nomatch advice.shouldDouble_eq.symm.trans turned
  | spoilt spoilt eq =>
    rw [eq] at optional
    exact nomatch optional
  | cash cash eq =>
    have firm : (initialOrRe s .doublePass .redoublePass).isOptional = false :=
      initialOrRe_cases (P := fun d => d.isOptional = false) s rfl rfl
    rw [eq] at optional
    exact nomatch firm.symm.trans optional
  | double le same answered advice equal =>
    rw [advice.optimal_eq]
    rcases equal optional with equal | equal
    · exact (Context.sub_le_of_isEqual equal).1
    · exact (Context.sub_le_of_isEqual equal).2

/-! ## Recommended actions -/

section

variable (nonneg : 0 ≤ ctx.options.equityEpsilon) (ruling : Ruling ctx c s v)

include nonneg ruling

/-- **The recommended use of the cube is no mistake.** -/
theorem mistakeFor_recommended :
    ctx.mistakeFor c v (if v.decision.shouldDouble then .double else .noDouble) = none := by
  refine mistakeFor_eq_none ?_
  have optimal := ruling.optimal_eq
  split at optimal
  · next turned => rwa [if_pos turned, regret, optimal, c.response_eq_min, sub_self]
  · next unturned => rwa [if_neg unturned, regret, optimal, sub_self]

/-- **The proper answer is no mistake.** -/
theorem mistakeFor_properResponse {answer : CubeAction}
    (proper : v.decision.properResponse = some answer) : ctx.mistakeFor c v answer = none := by
  refine mistakeFor_eq_none ?_
  have answered := ruling.answered proper
  cases answer with
  | noDouble | double => exact answered.elim
  | take | pass => exact (sub_nonpos.2 answered).trans nonneg

/-- Neither use of the cube is a mistake where a double is optional. -/
theorem mistakeFor_optional (optional : v.decision.isOptional = true) :
    ctx.mistakeFor c v .double = none ∧ ctx.mistakeFor c v .noDouble = none := by
  have recommended := mistakeFor_recommended nonneg ruling
  rw [if_pos (CubeDecision.shouldDouble_of_isOptional optional)] at recommended
  exact ⟨recommended, mistakeFor_eq_none (ruling.sub_le_of_optional optional)⟩

end

/-- A take and a pass are not both mistakes. -/
theorem mistakeFor_take_or_pass (nonneg : 0 ≤ ctx.options.equityEpsilon) :
    ctx.mistakeFor c v .take = none ∨ ctx.mistakeFor c v .pass = none := by
  rcases le_total c.doubleTake c.doublePass with le | le
  · exact .inl (mistakeFor_eq_none ((sub_nonpos.2 le).trans nonneg))
  · exact .inr (mistakeFor_eq_none ((sub_nonpos.2 le).trans nonneg))

variable (s) in
/-- **What a verdict recommends is no mistake**, and neither use of the cube is one where a double is
optional.  Turning the cube and leaving it alone are not both mistakes, nor are a take and a pass.
Every mistake costs more than the epsilon, and as much as its line falls short. -/
theorem mistakes_of_verdict (valid : ctx.options.validate = .ok ())
    (evaluated : c.isEvaluated = true) :
    ∃ v, ctx.classify c s = some v ∧
      ctx.mistake c s (if v.decision.shouldDouble then .double else .noDouble) = none ∧
      (∀ answer, v.decision.properResponse = some answer → ctx.mistake c s answer = none) ∧
      (v.decision.isOptional = true →
        ctx.mistake c s .double = none ∧ ctx.mistake c s .noDouble = none) ∧
      (ctx.mistake c s .noDouble = none ∨ ctx.mistake c s .double = none) ∧
      (ctx.mistake c s .take = none ∨ ctx.mistake c s .pass = none) ∧
      ∀ action e, ctx.mistake c s action = some e →
        ctx.options.equityEpsilon < e.cost ∧ e.cost = regret c v action := by
  have nonneg := Options.equityEpsilon_nonneg valid
  have ruling := ruling_verdict ctx s c.comparable_rat
  have classified : ctx.classify c s = some (verdict ctx c s) := if_pos evaluated
  have judged (action : CubeAction) :
      ctx.mistake c s action = ctx.mistakeFor c (verdict ctx c s) action := by
    rw [Context.mistake, classified, Option.bind_some]
  have recommended := mistakeFor_recommended nonneg ruling
  refine ⟨_, classified, ?_⟩
  simp only [judged]
  refine ⟨recommended, fun _ => mistakeFor_properResponse nonneg ruling,
    mistakeFor_optional nonneg ruling, ?_, mistakeFor_take_or_pass nonneg,
    fun _ _ => cost_of_mistakeFor⟩
  split at recommended
  · exact .inr recommended
  · exact .inl recommended

/-- A redouble that is passed by a hair, with the usual options. -/
theorem redouble_mistakes :
    let ctx : Context Rat := ⟨.standard, ⟨fun _ _ _ => 1 / 2⟩⟩
    let c : CubeLines Rat := ⟨1, 100001 / 100000, 1, none, 1 / 5, .rolledOut⟩
    let s : Stakes := { Stakes.money .zero with cube := 2, owner := some .zero }
    ctx.options.validate = .ok () ∧ c.isEvaluated = true ∧
      ∃ v, ctx.classify c s = some v ∧ v.decision = .optionalRedoublePass ∧
        ctx.mistake c s .double = none ∧ ctx.mistake c s .noDouble = none := by
  intro ctx c s
  have valid : ctx.options.validate = .ok () := by decide +kernel
  obtain ⟨v, classified, -, -, optional, -⟩ := mistakes_of_verdict s valid (c := c) rfl
  have decision : v.decision = .optionalRedoublePass := by
    have word : (ctx.classify c s).map CubeVerdict.decision = some .optionalRedoublePass := by
      decide +kernel
    rw [classified] at word
    exact Option.some.inj word
  exact ⟨valid, rfl, v, classified, decision, optional (by rw [decision]; rfl)⟩

end Analysis

end Backgammon
