import Backgammon.Proofs.Analysis.CubeOwner
import Backgammon.Proofs.Doubles.Quotients
import Backgammon.Proofs.ScalarOrder

/-!
# Proofs/Analysis/CubePercent — the cube percentage as a fraction

    take ── no double ────────── pass      no double: the share of the way to the pass
    pass ── no double ────────── take      too good, pass: the share of the way to the take

The percentage divides on the strength of the verdict alone, which therefore has to say where the equity
without a double stands.  It does so, and the percentage is a fraction, in all but two cases.  A double that
a beaver spoils is not made although it is worth more than none, and the percentage is negative.  Where
playing on is worth more than the pass but there are no gammons to play for, the verdict is still "no
double", and the percentage is one or more; when take and pass are worth the same, it is a division by zero.

* `IsShare` — a fraction, of a distance that is not zero.
* `Percentage`, `percentage_verdict` — the five ways in which a verdict can have a percentage.
* `classify_percent` — the percentage is a fraction outside the two cases, and what it is in them.
* `surpassed_cash_percent` — a percentage that is infinite.
-/

namespace Backgammon

/-- **Lines with finite equities.** -/
structure CubeLines.Finite (c : CubeLines Float) : Prop where
  noDouble : c.noDouble.isFinite = true
  doubleTake : c.doubleTake.isFinite = true
  doublePass : c.doublePass.isFinite = true

namespace Analysis

open CubeDecision Doubles

/-! ## The parts of the classifier -/

section

variable {α : Type} [Scalar α] (ctx : Context α) {c : CubeLines α} {s : Stakes}

/-- Both words for a verdict have the same percentage. -/
theorem percent_initialOrRe {d d' : CubeDecision} {p : Option α} (first : percent c d = p)
    (again : percent c d' = p) : percent c (initialOrRe s d d') = p :=
  initialOrRe_cases (P := fun d => percent c d = p) s first again

theorem percent_passVerdict : percent c (passVerdict ctx c s).decision = none := by
  rw [passVerdict]
  split <;> exact percent_initialOrRe rfl rfl

/-- A double that is made has no percentage. -/
theorem percent_takeVerdict (double : c.noDouble ≤ c.doubleTake) (taken : c.doubleTake < c.doublePass)
    (sound : ¬c.BeaverSpoils s) : percent c (takeVerdict ctx c s).decision = none := by
  rw [takeVerdict]
  split
  next region =>
    obtain ⟨⟨money, beavers⟩, le_takes, takes_le⟩ := inBeaverRegion_eq_true_iff.1 region
    have good : ¬c.doubleBeaver.getD (2 * c.doubleTake) < c.noDouble := fun worse =>
      sound ⟨money, beavers, le_takes, takes_le, double, taken, worse⟩
    rw [if_neg good]
    split <;> rfl
  next => split <;> exact percent_initialOrRe rfl rfl

/-- Too good to double: the share of the way from the pass to the take, if there is one. -/
theorem percent_tooGoodPassVerdict : percent c (tooGoodPassVerdict c s).decision = none ∨
    c.noDouble ≤ c.doubleTake ∧ percent c (tooGoodPassVerdict c s).decision =
      some ((c.noDouble - c.doublePass) / (c.doubleTake - c.doublePass)) := by
  rw [tooGoodPassVerdict]
  split
  · by_cases le : c.noDouble ≤ c.doubleTake
    · exact .inr ⟨le, percent_initialOrRe (if_pos le) (if_pos le)⟩
    · exact .inl (percent_initialOrRe (if_neg le) (if_neg le))
  · exact .inl (percent_initialOrRe rfl rfl)

/-- No double: the share of the way from the take to the pass, unless gammons make it too good. -/
theorem percent_noDoubleVerdict (notTooGood : c.doublePass < c.noDouble → hasGammons c = false) :
    percent c (noDoubleVerdict c s).decision =
      some ((c.noDouble - c.doubleTake) / (c.doublePass - c.doubleTake)) := by
  rw [noDoubleVerdict]
  split
  next surpassed =>
    rw [notTooGood surpassed, if_neg Bool.false_ne_true]
    exact percent_initialOrRe rfl rfl
  next => split <;> exact percent_initialOrRe rfl rfl

theorem percent_noDoubleVerdict_of_tooGood (surpassed : c.doublePass < c.noDouble)
    (gammons : hasGammons c = true) : percent c (noDoubleVerdict c s).decision = none := by
  rw [noDoubleVerdict, if_pos surpassed, if_pos gammons]
  exact percent_initialOrRe rfl rfl

end

/-! ## The percentage of a verdict -/

/-- **The pass is surpassed without gammons**: playing on is worth more than the pass, and a double would be
taken, but there are no gammons to play for. -/
structure CashSurpassed (c : CubeLines Float) : Prop where
  noGammons : hasGammons c = false
  taken : c.doubleTake ≤ c.doublePass
  surpassed : c.doublePass < c.noDouble

/-- **The percentage of a verdict**, and where the equity without a double stands. -/
inductive Percentage (c : CubeLines Float) (s : Stakes) (p : Option Float) : Prop
  | none (eq : p = none)
  | towardsPass (ge : c.doubleTake ≤ c.noDouble) (le : c.noDouble ≤ c.doublePass)
    (apart : c.doubleTake < c.doublePass)
    (eq : p = some ((c.noDouble - c.doubleTake) / (c.doublePass - c.doubleTake)))
  | towardsTake (ge : c.doublePass ≤ c.noDouble) (le : c.noDouble ≤ c.doubleTake)
    (apart : c.doublePass < c.doubleTake)
    (eq : p = some ((c.noDouble - c.doublePass) / (c.doubleTake - c.doublePass)))
  | spoilt (spoilt : SpoiltDouble c s)
    (eq : p = some ((c.noDouble - c.doubleTake) / (c.doublePass - c.doubleTake)))
  | surpassed (surpassed : CashSurpassed c)
    (eq : p = some ((c.noDouble - c.doubleTake) / (c.doublePass - c.doubleTake)))

variable (ctx : Context Float) {c : CubeLines Float} {s : Stakes}

/-- **Every verdict has its percentage in one of these ways.** -/
theorem percentage_verdict (finite : c.Finite) (available : s.cubeAvailable = true) :
    Percentage c s (percent c (verdict ctx c s).decision) := by
  have nd := isNaN_of_isFinite finite.noDouble
  have dt := isNaN_of_isFinite finite.doubleTake
  have dp := isNaN_of_isFinite finite.doublePass
  rw [verdict, available, if_neg (by decide)]
  split
  next window =>
    split
    next taken =>
      by_cases spoilt : c.BeaverSpoils s
      · rw [takeVerdict_eq ctx spoilt]
        exact .spoilt ⟨available, window.2, spoilt⟩ rfl
      · exact .none (percent_takeVerdict ctx window.1 taken spoilt)
    next => exact .none (percent_passVerdict ctx)
  next window =>
    split
    next playOn =>
      have not_below := (Scalar.LawfulOrder.lt_iff dt nd).1 playOn
      split
      next =>
        rcases percent_tooGoodPassVerdict (c := c) (s := s) with none | ⟨below, -⟩
        · exact .none none
        · exact absurd below not_below
      next not_passed =>
        have taken := Scalar.le_of_not_lt dp dt not_passed
        by_cases surpassed : c.doublePass < c.noDouble
        · cases gammons : hasGammons c with
          | true => exact .none (percent_noDoubleVerdict_of_tooGood surpassed gammons)
          | false => exact .surpassed ⟨gammons, taken, surpassed⟩ (percent_noDoubleVerdict fun _ => gammons)
        · have le := Scalar.le_of_not_lt dp nd surpassed
          have apart := (lt_iff_place dt dp).2
            (((lt_iff_place dt nd).1 playOn).trans_le ((le_iff_place nd dp).1 le))
          exact .towardsPass (Scalar.le_of_lt dt nd playOn) le apart
            (percent_noDoubleVerdict fun more => absurd more surpassed)
    next not_playOn =>
      have below := Scalar.le_of_not_lt dt nd not_playOn
      have tooGood : c.doublePass < c.noDouble :=
        (Scalar.LawfulOrder.lt_iff dp nd).2 fun le => window ⟨below, le⟩
      have apart := (lt_iff_place dp dt).2
        (((lt_iff_place dp nd).1 tooGood).trans_le ((le_iff_place nd dt).1 below))
      rcases percent_tooGoodPassVerdict (c := c) (s := s) with none | ⟨-, eq⟩
      · exact .none none
      · exact .towardsTake (Scalar.le_of_lt dp nd tooGood) below apart eq

/-- A position whose pass is surpassed is not doubled. -/
theorem percent_of_cashSurpassed (finite : c.Finite) (available : s.cubeAvailable = true)
    (h : CashSurpassed c) : percent c (verdict ctx c s).decision =
      some ((c.noDouble - c.doubleTake) / (c.doublePass - c.doubleTake)) := by
  have nd := isNaN_of_isFinite finite.noDouble
  have dt := isNaN_of_isFinite finite.doubleTake
  have dp := isNaN_of_isFinite finite.doublePass
  have playOn := (lt_iff_place dt nd).2
    (((le_iff_place dt dp).1 h.taken).trans_lt ((lt_iff_place dp nd).1 h.surpassed))
  have not_below := (Scalar.LawfulOrder.lt_iff dt nd).1 playOn
  have not_passed : ¬c.doublePass < c.doubleTake := fun passed =>
    (Scalar.LawfulOrder.lt_iff dp dt).1 passed h.taken
  rw [verdict, available, if_neg (by decide), if_neg fun window => not_below window.1, if_pos playOn,
    if_neg not_passed]
  exact percent_noDoubleVerdict fun _ => h.noGammons

/-! ## Shares -/

/-- **A share of a way**: how far `x` is on the way from `a` to `b`.  The way is not of length zero, and the
share is a fraction unless a distance is too large for a double. -/
structure IsShare (p x a b : Float) : Prop where
  eq : p = (x - a) / (b - a)
  distance_pos : 0 < b - a
  mem_unit : (x - a).isFinite = true → 0 ≤ p ∧ p ≤ 1

theorem isShare {x a b : Float} (hx : x.isFinite = true) (ha : a.isFinite = true)
    (hb : b.isFinite = true) (ge : a ≤ x) (le : x ≤ b) (apart : a < b) :
    IsShare ((x - a) / (b - a)) x a b :=
  ⟨rfl, sub_pos hb ha apart, share_mem_unit hx ha hb ge le apart⟩

/-- **The percentage is a fraction** where it is the share of a way at all. -/
theorem Percentage.isShare {p : Float} (h : Percentage c s (some p)) (finite : c.Finite)
    (sound : ¬(SpoiltDouble c s ∧ c.noDouble < c.doubleTake)) (short : ¬CashSurpassed c) :
    IsShare p c.noDouble c.doubleTake c.doublePass ∨ IsShare p c.noDouble c.doublePass c.doubleTake := by
  obtain ⟨nd, dt, dp⟩ := finite
  cases h with
  | none eq => exact nomatch eq
  | towardsPass ge le apart eq =>
    rw [Option.some.inj eq]
    exact .inl (Analysis.isShare nd dt dp ge le apart)
  | towardsTake ge le apart eq =>
    rw [Option.some.inj eq]
    exact .inr (Analysis.isShare nd dp dt ge le apart)
  | spoilt spoilt eq =>
    rw [Option.some.inj eq]
    have ge := Scalar.le_of_not_lt (isNaN_of_isFinite nd) (isNaN_of_isFinite dt) fun lt =>
      sound ⟨spoilt, lt⟩
    exact .inl (Analysis.isShare nd dt dp ge spoilt.below spoilt.spoilt.taken)
  | surpassed surpassed eq => exact absurd surpassed short

/-- **The cube percentage of a verdict** on finite equities, with a cube that can be turned.  If there is
one, it is a share of the way from take to pass or back, with two exceptions.  A double that is worth more
than none but spoilt by a beaver has a negative numerator.  Where playing on surpasses a pass without
gammons, the numerator is no less than the denominator, and that is zero exactly if take and pass are worth
the same. -/
theorem classify_percent (evaluated : c.isEvaluated = true) (finite : c.Finite)
    (available : s.cubeAvailable = true) :
    ∃ v, ctx.classify c s = some v ∧
      (¬(SpoiltDouble c s ∧ c.noDouble < c.doubleTake) → ¬CashSurpassed c →
        ∀ p, percent c v.decision = some p →
          IsShare p c.noDouble c.doubleTake c.doublePass ∨
            IsShare p c.noDouble c.doublePass c.doubleTake) ∧
      (SpoiltDouble c s ∨ CashSurpassed c → percent c v.decision =
        some ((c.noDouble - c.doubleTake) / (c.doublePass - c.doubleTake))) ∧
      (SpoiltDouble c s → c.noDouble < c.doubleTake →
        c.noDouble - c.doubleTake < 0 ∧ 0 < c.doublePass - c.doubleTake) ∧
      (CashSurpassed c → c.doublePass - c.doubleTake ≤ c.noDouble - c.doubleTake ∧
        (c.doublePass - c.doubleTake == 0 ↔ c.doublePass == c.doubleTake)) := by
  obtain ⟨nd, dt, dp⟩ := id finite
  refine ⟨verdict ctx c s, by rw [Context.classify, if_pos evaluated], fun sound short p eq => ?_, ?_,
    fun spoilt lt => ⟨sub_neg nd dt lt, sub_pos dp dt spoilt.spoilt.taken⟩, fun surpassed => ⟨?_, ?_⟩⟩
  · have percentage := percentage_verdict ctx finite available
    rw [eq] at percentage
    exact percentage.isShare finite sound short
  · rintro (spoilt | surpassed)
    · rw [verdict_of_spoiltDouble ctx spoilt]
      rfl
    · exact percent_of_cashSurpassed ctx finite available surpassed
  · exact sub_le_sub_right dp nd dt
      (Scalar.le_of_lt (isNaN_of_isFinite dp) (isNaN_of_isFinite nd) surpassed.surpassed)
  · exact sub_beq_zero_iff dp dt

/-- A quarter of the way from the take to the pass. -/
theorem quarter_way_percent :
    let c : CubeLines Float := ⟨0.4, 0.2, 1, none, 0, .evaluated⟩
    let ctx : Context Float := ⟨.standard, ⟨fun _ _ _ => 0.5⟩⟩
    c.isEvaluated = true ∧ c.Finite ∧ (Stakes.money .zero).cubeAvailable = true ∧
      ¬(SpoiltDouble c (.money .zero) ∧ c.noDouble < c.doubleTake) ∧ ¬CashSurpassed c ∧
      ∃ v p, ctx.classify c (.money .zero) = some v ∧ percent c v.decision = some p ∧ 0 ≤ p ∧ p ≤ 1 := by
  intro c ctx
  have finite : c.Finite := ⟨by decide +kernel, by decide +kernel, by decide +kernel⟩
  have not_lt : ¬c.noDouble < c.doubleTake := by decide +kernel
  have not_surpassed : ¬c.doublePass < c.noDouble := by decide +kernel
  have sound : ¬(SpoiltDouble c (.money .zero) ∧ c.noDouble < c.doubleTake) := fun h => not_lt h.2
  have short : ¬CashSurpassed c := fun h => not_surpassed h.surpassed
  have percent_eq : (percent c (verdict ctx c (.money .zero)).decision).isSome = true := by
    decide +kernel
  have near : (c.noDouble - c.doubleTake).isFinite = true ∧
      (c.noDouble - c.doublePass).isFinite = true := by decide +kernel
  obtain ⟨v, classified, share, -⟩ := classify_percent ctx (s := .money .zero) rfl finite rfl
  obtain rfl : verdict ctx c (.money .zero) = v := Option.some.inj classified
  obtain ⟨p, eq⟩ := Option.isSome_iff_exists.1 percent_eq
  refine ⟨rfl, finite, rfl, sound, short, _, p, classified, eq, ?_⟩
  rcases share sound short p eq with share | share
  · exact share.mem_unit near.1
  · exact share.mem_unit near.2

/-- **A percentage that is infinite**: playing on is worth more than the pass, which is worth as much as the
take, and there are no gammons. -/
theorem surpassed_cash_percent :
    let c : CubeLines Float := ⟨1.2, 1, 1, none, 0, .evaluated⟩
    let ctx : Context Float := ⟨.standard, ⟨fun _ _ _ => 0.5⟩⟩
    c.isEvaluated = true ∧ c.Finite ∧ (Stakes.money .zero).cubeAvailable = true ∧
      ctx.classify c (.money .zero) = some ⟨.noDoubleTake, c.noDouble⟩ ∧
      c.doublePass - c.doubleTake == 0 ∧
      ∃ p, percent c .noDoubleTake = some p ∧ p.isFinite = false ∧ ¬p ≤ 1 := by
  intro c ctx
  have finite : c.Finite := ⟨by decide +kernel, by decide +kernel, by decide +kernel⟩
  exact ⟨rfl, finite, rfl, by decide +kernel, by decide +kernel, _, rfl, by decide +kernel,
    by decide +kernel⟩

end Analysis

end Backgammon
