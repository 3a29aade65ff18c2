import Backgammon.Analysis.CubeDecision
import Backgammon.Proofs.ScalarSigns

/-!
# Proofs/Analysis/CubeValue — the verdict, and what the cube is worth

    no double ────────────────────────▸ play on
    double ──── take ──▸ at twice the stake
          └──── pass ──▸ the present stake is won

The player on roll picks the better of the two rows, the opponent the worse end of the second one for
the doubler.  As long as the three equities are numbers they leave four windows, and in each of them one
part of the classifier speaks.  Of two zeros either may be the better, so what is said of the value is
said up to the sign of zero.

* `CubeLines.Window`, `CubeLines.Comparable.window` — the four windows, one of which always holds.
* `CubeVerdict.Advises` — what a verdict comes to; one lemma for each part of the classifier.
* `Ruling`, `ruling_verdict` — the five things that a verdict can say, one of which every verdict does.
* `classify_optimal_eq_value` — the verdict has the value of the cube game, but for a double that a
  beaver spoils and for a position too good without gammons.
* `unknown_gammons_cashed` — the latter case takes in a gammon chance that is not a number.
-/

namespace Backgammon

variable {α : Type} [Scalar α]

/-! ## The cube game -/

namespace CubeLines

variable (c : CubeLines α) (s : Stakes)

/-- **The value of the cube game** to the player on roll. -/
def value : α := Scalar.max c.noDouble c.response

/-- **The lines can be compared**: their equities are numbers. -/
structure Comparable : Prop where
  noDouble : Scalar.isNaN c.noDouble = false
  doubleTake : Scalar.isNaN c.doubleTake = false
  doublePass : Scalar.isNaN c.doublePass = false

/-- **A beaver spoils the double**: a double that would be taken is beavered, and the doubler would
rather have left the cube alone. -/
structure BeaverSpoils : Prop where
  money : s.isMoney = true
  beavers : s.beavers = true
  le_takes : -2 ≤ c.doubleTake
  takes_le : c.doubleTake ≤ 0
  double : c.noDouble ≤ c.doubleTake
  taken : c.doubleTake < c.doublePass
  worse : c.doubleBeaver.getD (2 * c.doubleTake) < c.noDouble

/-- **Cashing for less**: playing on is worth more than the pass that a double would get, but no gammons
are known to play for. -/
structure CashesForLess : Prop where
  noGammons : ¬0 < c.winGammon
  tooGood : c.doublePass < c.noDouble
  passed : c.doublePass < c.doubleTake

/-- **The answer to a double is the worse of the two** for the doubler. -/
def AnsweredBy : Analysis.CubeAction → Prop
  | .take => c.doubleTake ≤ c.doublePass
  | .pass => c.doublePass ≤ c.doubleTake
  | _ => False

/-- **Where the equity without a double stands** to those of a take and a pass. -/
inductive Window : Prop
  | doubleTake (double : c.noDouble ≤ c.doubleTake) (below : c.noDouble ≤ c.doublePass)
      (taken : c.doubleTake < c.doublePass)
  | doublePass (double : c.noDouble ≤ c.doubleTake) (below : c.noDouble ≤ c.doublePass)
      (passed : c.doublePass ≤ c.doubleTake)
  | playOnTake (playOn : c.doubleTake < c.noDouble) (taken : c.doubleTake ≤ c.doublePass)
  | playOnPass (playOn : c.doublePass < c.noDouble) (passed : c.doublePass < c.doubleTake)

namespace Comparable

open Scalar

variable {c} [Scalar.LawfulSign α] (h : c.Comparable)

include h

/-- **There is always a window.** -/
theorem window : c.Window := by
  rcases le_or_lt h.doubleTake h.doublePass with taken | passed
  · rcases le_or_lt h.noDouble h.doubleTake with double | playOn
    · have below := le_of_le_of_le double taken
      rcases le_or_lt h.doublePass h.doubleTake with passed | taken
      · exact .doublePass double below passed
      · exact .doubleTake double below taken
    · exact .playOnTake playOn taken
  · rcases le_or_lt h.noDouble h.doublePass with below | playOn
    · have le := le_of_lt h.doublePass h.doubleTake passed
      exact .doublePass (le_of_le_of_le below le) below le
    · exact .playOnPass playOn passed

/-! ### The response -/

theorem response_cases : c.response = c.doubleTake ∧ c.doubleTake ≤ c.doublePass ∨
    c.response = c.doublePass ∧ c.doublePass ≤ c.doubleTake :=
  min_cases h.doubleTake h.doublePass

theorem isNaN_response : isNaN c.response = false := by
  rcases h.response_cases with ⟨eq, -⟩ | ⟨eq, -⟩
  · rw [eq, h.doubleTake]
  · rw [eq, h.doublePass]

theorem le_response {x : α} (take : x ≤ c.doubleTake) (pass : x ≤ c.doublePass) :
    x ≤ c.response := by
  rcases h.response_cases with ⟨eq, -⟩ | ⟨eq, -⟩
  · rwa [eq]
  · rwa [eq]

theorem response_le : c.response ≤ c.doubleTake ∧ c.response ≤ c.doublePass := by
  rcases h.response_cases with ⟨eq, le⟩ | ⟨eq, le⟩
  · rw [eq]
    exact ⟨Scalar.le_refl h.doubleTake, le⟩
  · rw [eq]
    exact ⟨le, Scalar.le_refl h.doublePass⟩

/-- The worse of the two answers is worth as much as the response. -/
theorem doubleTake_beq_response (taken : c.doubleTake ≤ c.doublePass) :
    (c.doubleTake == c.response) = true :=
  (LawfulOrder.beq_iff h.doubleTake h.isNaN_response).2
    ⟨h.le_response (Scalar.le_refl h.doubleTake) taken, h.response_le.1⟩

theorem doublePass_beq_response (passed : c.doublePass ≤ c.doubleTake) :
    (c.doublePass == c.response) = true :=
  (LawfulOrder.beq_iff h.doublePass h.isNaN_response).2
    ⟨h.le_response passed (Scalar.le_refl h.doublePass), h.response_le.2⟩

/-! ### The value -/

/-- A double is worth the value of the game where it loses nothing. -/
theorem beq_value {worth : α} (same : (worth == c.response) = true) (le : c.noDouble ≤ c.response) :
    (worth == c.value) = true := by
  rcases max_cases h.noDouble h.isNaN_response with ⟨eq, ge⟩ | ⟨eq, -⟩
  · obtain ⟨below, above⟩ := le_of_beq same
    rw [value, eq, LawfulOrder.beq_iff (LawfulSign.numbers_of_beq same).1 h.noDouble]
    exact ⟨le_of_le_of_le below ge, le_of_le_of_le le above⟩
  · rwa [value, eq]

/-- Playing on is worth the value of the game where a double loses something. -/
theorem value_eq_noDouble (lt : c.response < c.noDouble) : c.value = c.noDouble := by
  rcases max_cases h.noDouble h.isNaN_response with ⟨eq, -⟩ | ⟨-, le⟩
  · exact eq
  · exact absurd lt (not_lt_of_le le)

end Comparable

end CubeLines

/-! ## The parts of the classifier -/

namespace Analysis

/-- **What a verdict comes to**: whether the cube is turned, how a double is answered, and the equity
of the best line. -/
structure CubeVerdict.Advises (v : CubeVerdict α) (double : Bool) (answer : Option CubeAction)
    (worth : α) : Prop where
  shouldDouble_eq : v.decision.shouldDouble = double
  properResponse_eq : v.decision.properResponse = answer
  optimal_eq : v.optimal = worth

/-- The answer that a verdict gives is right. -/
theorem CubeVerdict.Advises.answered {c : CubeLines α} {v : CubeVerdict α} {double : Bool}
    {answer : CubeAction} {worth : α} (advice : v.Advises double (some answer) worth)
    (right : c.AnsweredBy answer) :
    (v.decision.properResponse = some .pass → c.doublePass ≤ c.doubleTake) ∧
      (v.decision.properResponse = some .take → c.doubleTake ≤ c.doublePass) := by
  rw [advice.properResponse_eq]
  constructor
  · rintro ⟨rfl⟩
    exact right
  · rintro ⟨rfl⟩
    exact right

/-- What holds of a first double and of a redouble holds of either. -/
theorem initialOrRe_cases {P : CubeDecision → Prop} (s : Stakes) {initial redouble : CubeDecision}
    (first : P initial) (again : P redouble) : P (initialOrRe s initial redouble) := by
  rw [initialOrRe]
  split
  · exact first
  · exact again

omit [Scalar α] in
/-- Both words for a verdict advise the same. -/
theorem advises_initialOrRe (s : Stakes) {initial redouble : CubeDecision} {double : Bool}
    {answer : Option CubeAction} (worth : α)
    (first : initial.shouldDouble = double ∧ initial.properResponse = answer)
    (again : redouble.shouldDouble = double ∧ redouble.properResponse = answer) :
    (CubeVerdict.mk (initialOrRe s initial redouble) worth).Advises double answer worth :=
  initialOrRe_cases (P := fun d => (CubeVerdict.mk d worth).Advises double answer worth) s
    ⟨first.1, first.2, rfl⟩ ⟨again.1, again.2, rfl⟩

variable (ctx : Context α) (c : CubeLines α) (s : Stakes)

omit [Scalar α] in
theorem advises_deadVerdict : (deadVerdict c s).Advises false none c.noDouble := by
  rw [deadVerdict]
  split
  · exact advises_initialOrRe s _ ⟨rfl, rfl⟩ ⟨rfl, rfl⟩
  · exact ⟨rfl, rfl, rfl⟩

theorem advises_passVerdict : (passVerdict ctx c s).Advises true (some .pass) c.doublePass := by
  rw [passVerdict]
  split <;> exact advises_initialOrRe s _ ⟨rfl, rfl⟩ ⟨rfl, rfl⟩

theorem advises_noDoubleVerdict : (noDoubleVerdict c s).Advises false (some .take) c.noDouble := by
  rw [noDoubleVerdict]
  split
  · split <;> exact advises_initialOrRe s _ ⟨rfl, rfl⟩ ⟨rfl, rfl⟩
  · split <;> exact advises_initialOrRe s _ ⟨rfl, rfl⟩ ⟨rfl, rfl⟩

theorem advises_tooGoodPassVerdict (gammons : hasGammons c = true) :
    (tooGoodPassVerdict c s).Advises false (some .pass) c.noDouble := by
  rw [tooGoodPassVerdict, if_pos gammons]
  exact advises_initialOrRe s _ ⟨rfl, rfl⟩ ⟨rfl, rfl⟩

/-- Without gammons a position that is too good is cashed. -/
theorem tooGoodPassVerdict_eq (gammons : hasGammons c = false) :
    tooGoodPassVerdict c s = ⟨initialOrRe s .doublePass .redoublePass, c.doublePass⟩ := by
  rw [tooGoodPassVerdict, gammons, if_neg Bool.false_ne_true]

variable {c s}

theorem inBeaverRegion_eq_true_iff : inBeaverRegion c s = true ↔
    (s.isMoney = true ∧ s.beavers = true) ∧ -2 ≤ c.doubleTake ∧ c.doubleTake ≤ 0 := by
  simp only [inBeaverRegion, Scalar.within, Bool.and_eq_true, decide_eq_true_eq]

/-- A double that a beaver spoils is not made. -/
theorem takeVerdict_eq (spoilt : c.BeaverSpoils s) :
    takeVerdict ctx c s = ⟨.noDoubleBeaver, c.noDouble⟩ := by
  have region : inBeaverRegion c s = true := inBeaverRegion_eq_true_iff.2
    ⟨⟨spoilt.money, spoilt.beavers⟩, spoilt.le_takes, spoilt.takes_le⟩
  rw [takeVerdict, if_pos region, if_pos spoilt.worse]

/-- Any other double that is taken is made. -/
theorem advises_takeVerdict (double : c.noDouble ≤ c.doubleTake)
    (taken : c.doubleTake < c.doublePass) (sound : ¬ c.BeaverSpoils s) :
    (takeVerdict ctx c s).Advises true (some .take) c.doubleTake := by
  rw [takeVerdict]
  split
  · next region =>
    obtain ⟨⟨money, beavers⟩, le_takes, takes_le⟩ := inBeaverRegion_eq_true_iff.1 region
    have good : ¬ c.doubleBeaver.getD (2 * c.doubleTake) < c.noDouble := fun worse =>
      sound ⟨money, beavers, le_takes, takes_le, double, taken, worse⟩
    rw [if_neg good]
    split <;> exact ⟨rfl, rfl, rfl⟩
  · split <;> exact advises_initialOrRe s _ ⟨rfl, rfl⟩ ⟨rfl, rfl⟩

/-- A double that is optional and taken is worth about as much as none. -/
theorem isEqual_of_isOptional_takeVerdict
    (optional : (takeVerdict ctx c s).decision.isOptional = true) :
    ctx.isEqual c.doubleTake c.noDouble = true := by
  revert optional
  cases equal : ctx.isEqual c.doubleTake c.noDouble with
  | true => exact fun _ => rfl
  | false =>
    simp only [takeVerdict, equal, Bool.false_eq_true, if_false]
    split
    · split <;> exact nofun
    · exact initialOrRe_cases (P := fun d => d.isOptional = true → False) s nofun nofun

/-- A double that is optional and passed is worth about as much as none. -/
theorem isEqual_of_isOptional_passVerdict
    (optional : (passVerdict ctx c s).decision.isOptional = true) :
    ctx.isEqual c.noDouble c.doublePass = true := by
  revert optional
  cases equal : ctx.isEqual c.noDouble c.doublePass with
  | true => exact fun _ => rfl
  | false =>
    simp only [passVerdict, equal, Bool.false_and, Bool.false_eq_true, if_false]
    exact initialOrRe_cases (P := fun d => d.isOptional = true → False) s nofun nofun

/-! ## The verdict in each window -/

section

variable (available : s.cubeAvailable = true)

include available

theorem verdict_eq_takeVerdict (double : c.noDouble ≤ c.doubleTake)
    (below : c.noDouble ≤ c.doublePass) (taken : c.doubleTake < c.doublePass) :
    verdict ctx c s = takeVerdict ctx c s := by
  simp only [verdict, available, double, below, taken, and_self, if_true, Bool.not_true,
    Bool.false_eq_true, if_false]

variable [Scalar.LawfulSign α]

theorem verdict_eq_passVerdict (double : c.noDouble ≤ c.doubleTake)
    (below : c.noDouble ≤ c.doublePass) (passed : c.doublePass ≤ c.doubleTake) :
    verdict ctx c s = passVerdict ctx c s := by
  have not_taken := Scalar.not_lt_of_le passed
  simp only [verdict, available, double, below, not_taken, and_self, if_true, Bool.not_true,
    Bool.false_eq_true, if_false]

theorem verdict_eq_noDoubleVerdict (playOn : c.doubleTake < c.noDouble)
    (taken : c.doubleTake ≤ c.doublePass) : verdict ctx c s = noDoubleVerdict c s := by
  have not_double : ¬c.noDouble ≤ c.doubleTake := fun le => Scalar.not_lt_of_le le playOn
  have not_passed := Scalar.not_lt_of_le taken
  simp only [verdict, available, playOn, not_double, not_passed, false_and, if_true, Bool.not_true,
    Bool.false_eq_true, if_false]

theorem verdict_eq_tooGoodPassVerdict (playOn : c.doublePass < c.noDouble)
    (passed : c.doublePass < c.doubleTake) : verdict ctx c s = tooGoodPassVerdict c s := by
  have not_below : ¬c.noDouble ≤ c.doublePass := fun le => Scalar.not_lt_of_le le playOn
  simp only [verdict, available, passed, not_below, and_false, if_true, Bool.not_true,
    Bool.false_eq_true, if_false, ite_self]

end

theorem advises_verdict_of_unavailable (unavailable : s.cubeAvailable = false) :
    (verdict ctx c s).Advises false none c.noDouble := by
  rw [verdict, unavailable]
  exact advises_deadVerdict c s

/-! ## What a verdict says -/

variable (c s) in
/-- **What a verdict says.**  The cube is dead, a double is spoilt, a position too good is cashed, or
the better line is taken: a double where the answer to it is worth no less than playing on, and
playing on where it is worth less.  An optional double is worth about as much as none. -/
inductive Ruling (v : CubeVerdict α) : Prop
  | dead (unavailable : s.cubeAvailable = false) (advice : v.Advises false none c.noDouble)
  | spoilt (spoilt : c.BeaverSpoils s) (eq : v = ⟨.noDoubleBeaver, c.noDouble⟩)
  | cash (cash : c.CashesForLess)
      (eq : v = ⟨initialOrRe s .doublePass .redoublePass, c.doublePass⟩)
  | double {answer : CubeAction} {worth : α} (le : c.noDouble ≤ c.response)
      (same : (worth == c.response) = true) (answered : c.AnsweredBy answer)
      (advice : v.Advises true (some answer) worth)
      (optional : v.decision.isOptional = true →
        ctx.isEqual worth c.noDouble = true ∨ ctx.isEqual c.noDouble worth = true)
  | playOn {answer : CubeAction} (lt : c.response < c.noDouble) (answered : c.AnsweredBy answer)
      (advice : v.Advises false (some answer) c.noDouble)

section

variable [Scalar.LawfulSign α]

variable (s) in
/-- **Every verdict says one of these things.** -/
theorem ruling_verdict (h : c.Comparable) : Ruling ctx c s (verdict ctx c s) := by
  cases available : s.cubeAvailable with
  | false => exact .dead available (advises_verdict_of_unavailable ctx available)
  | true =>
    cases h.window with
    | doubleTake double below taken =>
      rw [verdict_eq_takeVerdict ctx available double below taken]
      have le := Scalar.le_of_lt h.doubleTake h.doublePass taken
      by_cases spoilt : c.BeaverSpoils s
      · exact .spoilt spoilt (takeVerdict_eq ctx spoilt)
      · have answered : c.AnsweredBy .take := le
        exact .double (h.le_response double below) (h.doubleTake_beq_response le) answered
          (advises_takeVerdict ctx double taken spoilt)
          fun optional => .inl (isEqual_of_isOptional_takeVerdict ctx optional)
    | doublePass double below passed =>
      rw [verdict_eq_passVerdict ctx available double below passed]
      have answered : c.AnsweredBy .pass := passed
      exact .double (h.le_response double below) (h.doublePass_beq_response passed) answered
        (advises_passVerdict ctx c s)
        fun optional => .inr (isEqual_of_isOptional_passVerdict ctx optional)
    | playOnTake playOn taken =>
      rw [verdict_eq_noDoubleVerdict ctx available playOn taken]
      have answered : c.AnsweredBy .take := taken
      have lt := Scalar.lt_of_le_of_lt h.response_le.1 playOn
      exact .playOn lt answered (advises_noDoubleVerdict c s)
    | playOnPass playOn passed =>
      rw [verdict_eq_tooGoodPassVerdict ctx available playOn passed]
      cases gammons : hasGammons c with
      | false =>
        have noGammons : ¬0 < c.winGammon := of_decide_eq_false gammons
        exact .cash ⟨noGammons, playOn, passed⟩ (tooGoodPassVerdict_eq c s gammons)
      | true =>
        have answered : c.AnsweredBy .pass := Scalar.le_of_lt h.doublePass h.doubleTake passed
        have lt := Scalar.lt_of_le_of_lt h.response_le.2 playOn
        exact .playOn lt answered (advises_tooGoodPassVerdict c s gammons)

/-! ## The value of the game -/

/-- **A verdict that plays the cube game well**: the best line has the value of the game, the cube is
turned where the opponent's answer is worth no less than playing on, and the answer is the worse of
the two for the doubler. -/
structure CubeVerdict.PlaysWell (c : CubeLines α) (v : CubeVerdict α) : Prop where
  optimal_beq : (v.optimal == c.value) = true
  shouldDouble_iff : v.decision.shouldDouble = true ↔ c.noDouble ≤ c.response
  passed : v.decision.properResponse = some .pass → c.doublePass ≤ c.doubleTake
  taken : v.decision.properResponse = some .take → c.doubleTake ≤ c.doublePass

/-- **Outside the two exceptions the cube game is played well.** -/
theorem Ruling.playsWell {v : CubeVerdict α} (ruling : Ruling ctx c s v) (h : c.Comparable)
    (available : s.cubeAvailable = true) (sound : ¬c.BeaverSpoils s) (dear : ¬c.CashesForLess) :
    v.PlaysWell c := by
  cases ruling with
  | dead unavailable => exact absurd (available.symm.trans unavailable) (by decide)
  | spoilt spoilt => exact absurd spoilt sound
  | cash cash => exact absurd cash dear
  | double le same answered advice =>
    refine ⟨?_, ?_, (advice.answered answered).1, (advice.answered answered).2⟩
    · rw [advice.optimal_eq, h.beq_value same le]
    · simp only [advice.shouldDouble_eq, le]
  | playOn lt answered advice =>
    refine ⟨?_, ?_, (advice.answered answered).1, (advice.answered answered).2⟩
    · rw [advice.optimal_eq, h.value_eq_noDouble lt, Scalar.beq_refl h.noDouble]
    · have not_le : ¬c.noDouble ≤ c.response := fun le => Scalar.not_lt_of_le le lt
      simp only [advice.shouldDouble_eq, not_le, Bool.false_eq_true]

/-- **The verdict has the value of the cube game.**  A cube that is not available is left alone.  One
that is available is turned where the opponent's answer is worth no less than playing on, and the
answer is the worse of the two for the doubler.  Two cases differ: a double that a beaver spoils, and
a position too good to double without gammons. -/
theorem classify_optimal_eq_value (evaluated : c.isEvaluated = true) (h : c.Comparable) :
    ∃ v, ctx.classify c s = some v ∧
      (s.cubeAvailable = false → v.optimal = c.noDouble ∧ v.decision.shouldDouble = false) ∧
      (s.cubeAvailable = true →
        (c.BeaverSpoils s → v.decision = .noDoubleBeaver ∧ v.optimal = c.noDouble) ∧
        (c.CashesForLess →
          (v.decision = .doublePass ∨ v.decision = .redoublePass) ∧ v.optimal = c.doublePass) ∧
        (¬c.BeaverSpoils s → ¬c.CashesForLess → v.PlaysWell c)) := by
  refine ⟨verdict ctx c s, by rw [Context.classify, if_pos evaluated], ?_, ?_⟩
  · intro unavailable
    have advice := advises_verdict_of_unavailable ctx (c := c) unavailable
    exact ⟨advice.optimal_eq, advice.shouldDouble_eq⟩
  intro available
  refine ⟨?_, ?_, ?_⟩
  · intro spoilt
    have le := Scalar.le_of_lt h.doubleTake h.doublePass spoilt.taken
    have below := Scalar.le_of_le_of_le spoilt.double le
    rw [verdict_eq_takeVerdict ctx available spoilt.double below spoilt.taken,
      takeVerdict_eq ctx spoilt]
    exact ⟨rfl, rfl⟩
  · intro cash
    rw [verdict_eq_tooGoodPassVerdict ctx available cash.tooGood cash.passed,
      tooGoodPassVerdict_eq c s (decide_eq_false cash.noGammons)]
    exact ⟨initialOrRe_cases (P := fun d => d = .doublePass ∨ d = .redoublePass) s (.inl rfl)
      (.inr rfl), rfl⟩
  · intro sound dear
    exact (ruling_verdict ctx s h).playsWell ctx h available sound dear

end

/-- A position that is too good to double with a cube that would be taken, in double precision. -/
theorem tooGood_take_has_value :
    let c : CubeLines Float := ⟨1.3, 1.1, 1.2, none, 0.4, .evaluated⟩
    let ctx : Context Float := ⟨.standard, ⟨fun _ _ _ => 0.5⟩⟩
    c.isEvaluated = true ∧ c.Comparable ∧
      ∃ v, ctx.classify c (.money .zero) = some v ∧ v.PlaysWell c := by
  intro c ctx
  have numbers : c.Comparable := ⟨by decide +kernel, by decide +kernel, by decide +kernel⟩
  have gammons : 0 < c.winGammon := by decide +kernel
  have worth : ¬c.doubleTake ≤ 0 := by decide +kernel
  obtain ⟨v, classified, -, well⟩ := classify_optimal_eq_value ctx (s := .money .zero) rfl numbers
  exact ⟨rfl, numbers, v, classified, (well rfl).2.2 (fun spoilt => worth spoilt.takes_le)
    fun cash => cash.noGammons gammons⟩

/-- **Gammons of which nothing is known**: with a chance that is not a number, and so not zero or less
either, the position is too good to double, but it is cashed for less than the value of the game. -/
theorem unknown_gammons_cashed :
    let c : CubeLines Float := ⟨1.3, 1.6, 1, none, 0 / 0, .evaluated⟩
    let ctx : Context Float := ⟨.standard, ⟨fun _ _ _ => 0.5⟩⟩
    let s : Stakes := .money .zero
    c.isEvaluated = true ∧ c.Comparable ∧ s.cubeAvailable = true ∧ ¬c.doubleTake ≤ 0 ∧
      ¬c.winGammon ≤ 0 ∧ c.CashesForLess ∧ ∃ v, ctx.classify c s = some v ∧
        v.decision = .doublePass ∧ (v.optimal == c.value) = false := by
  intro c ctx s
  have cash : c.CashesForLess := ⟨by decide +kernel, by decide +kernel, by decide +kernel⟩
  have cashed : ctx.classify c s = some ⟨.doublePass, 1⟩ := by decide +kernel
  exact ⟨rfl, ⟨by decide +kernel, by decide +kernel, by decide +kernel⟩, rfl, by decide +kernel,
    by decide +kernel, cash, _, cashed, rfl, by decide +kernel⟩

end Analysis

end Backgammon
