import Backgammon.Proofs.Analysis.CubeValue

/-!
# Proofs/Analysis/CubeOwner — a first double, or a redouble

    double, take  ──the cube has an owner──▸  redouble, take

Most verdicts come in two forms, one for a cube in the middle and one for a cube that has an owner.
Every part of the classifier has to choose between them on its own.  All do, but for one: a double that a
beaver spoils is called a first double even when it would be a redouble.

* `CubeDecision.redoubled?`, `isRedouble` — the two forms of a verdict.
* `CubeDecision.Suits` — a verdict has the form for the cube; one lemma for each part of the classifier.
* `classify_suits_owner` — the verdict suits the cube unless a beaver spoils a redouble.
* `spoilt_redouble_called_double` — then it does not.
-/

namespace Backgammon.Analysis

namespace CubeDecision

/-- **The same verdict about a redouble**, if there is one. -/
def redoubled? : CubeDecision → Option CubeDecision
  | doubleTake => some redoubleTake
  | doublePass => some redoublePass
  | noDoubleTake => some noRedoubleTake
  | noDoubleBeaver => some noRedoubleBeaver
  | tooGoodTake => some tooGoodRedoubleTake
  | tooGoodPass => some tooGoodRedoublePass
  | noDoubleDeadCube => some noRedoubleDeadCube
  | optionalDoubleTake => some optionalRedoubleTake
  | optionalDoublePass => some optionalRedoublePass
  | _ => none

/-- The verdict is about a redouble. -/
def isRedouble (d : CubeDecision) : Bool := all.any fun first => first.redoubled? == some d

/-- **A verdict has the form for the cube**: not that of a redouble while the cube stands in the middle,
and not that of a first double once it has an owner. -/
structure Suits (d : CubeDecision) (s : Stakes) : Prop where
  centered : s.isCentered = true → d.isRedouble = false
  owned : s.isCentered = false → d.redoubled? = none

variable {d d' : CubeDecision} {s : Stakes}

/-- A verdict that has one form for all cubes. -/
theorem suits_of_single (first : d.redoubled? = none) (again : d.isRedouble = false) : d.Suits s :=
  ⟨fun _ => again, fun _ => first⟩

/-- No verdict is about both a first double and a redouble. -/
theorem forms_of_redoubled? (pair : d.redoubled? = some d') :
    d.isRedouble = false ∧ d'.redoubled? = none := by
  cases d <;> cases pair <;> exact ⟨rfl, rfl⟩

/-- **Whoever chooses between the two forms of a verdict** gets the one for the cube. -/
theorem suits_initialOrRe (pair : d.redoubled? = some d') : (initialOrRe s d d').Suits s := by
  obtain ⟨first, again⟩ := forms_of_redoubled? pair
  rw [initialOrRe]
  cases middle : s.isCentered with
  | true =>
    exact ⟨fun _ => first, fun owned => absurd (owned.symm.trans middle) Bool.false_ne_true⟩
  | false =>
    exact ⟨fun centered => absurd (middle.symm.trans centered) Bool.false_ne_true, fun _ => again⟩

end CubeDecision

/-! ## The parts of the classifier -/

variable {α : Type} [Scalar α] (ctx : Context α) {c : CubeLines α} {s : Stakes}

open CubeDecision

omit [Scalar α] in
theorem suits_deadVerdict : (deadVerdict c s).decision.Suits s := by
  rw [deadVerdict]
  split
  · exact suits_initialOrRe rfl
  · exact suits_of_single rfl rfl

theorem suits_passVerdict : (passVerdict ctx c s).decision.Suits s := by
  rw [passVerdict]
  split <;> exact suits_initialOrRe rfl

theorem suits_tooGoodPassVerdict : (tooGoodPassVerdict c s).decision.Suits s := by
  rw [tooGoodPassVerdict]
  split <;> exact suits_initialOrRe rfl

theorem suits_noDoubleVerdict : (noDoubleVerdict c s).decision.Suits s := by
  rw [noDoubleVerdict]
  split
  · split <;> exact suits_initialOrRe rfl
  · split <;> exact suits_initialOrRe rfl

/-- Where a double is taken, a beaver has to spoil it for the verdict not to suit the cube. -/
theorem suits_takeVerdict (double : c.noDouble ≤ c.doubleTake) (taken : c.doubleTake < c.doublePass)
    (sound : ¬c.BeaverSpoils s) : (takeVerdict ctx c s).decision.Suits s := by
  rw [takeVerdict]
  split
  next region =>
    obtain ⟨⟨money, beavers⟩, le_takes, takes_le⟩ := inBeaverRegion_eq_true_iff.1 region
    have good : ¬c.doubleBeaver.getD (2 * c.doubleTake) < c.noDouble := fun worse =>
      sound ⟨money, beavers, le_takes, takes_le, double, taken, worse⟩
    rw [if_neg good]
    split <;> exact suits_of_single rfl rfl
  next => split <;> exact suits_initialOrRe rfl

/-! ## The verdict -/

/-- **A beaver spoils a double that could be made**, and that playing on does not beat. -/
structure SpoiltDouble (c : CubeLines α) (s : Stakes) : Prop where
  available : s.cubeAvailable = true
  below : c.noDouble ≤ c.doublePass
  spoilt : c.BeaverSpoils s

theorem verdict_of_spoiltDouble (h : SpoiltDouble c s) :
    verdict ctx c s = ⟨.noDoubleBeaver, c.noDouble⟩ := by
  rw [verdict_eq_takeVerdict ctx h.available h.spoilt.double h.below h.spoilt.taken,
    takeVerdict_eq ctx h.spoilt]

theorem suits_verdict (sound : ¬SpoiltDouble c s) : (verdict ctx c s).decision.Suits s := by
  rw [verdict]
  split
  · exact suits_deadVerdict
  next available =>
    split
    next window =>
      split
      next taken =>
        have available : s.cubeAvailable = true := by simpa using available
        exact suits_takeVerdict ctx window.1 taken fun spoilt => sound ⟨available, window.2, spoilt⟩
      next => exact suits_passVerdict ctx
    next =>
      split
      · split
        · exact suits_tooGoodPassVerdict
        · exact suits_noDoubleVerdict
      · exact suits_tooGoodPassVerdict

/-- **The verdict suits the owner of the cube.**  In the middle the cube is never redoubled.  Once it has
an owner, the verdict on it is none that there is for redoubles as well, with one exception: a redouble
that a beaver spoils is ruled out in the words for a first double. -/
theorem classify_suits_owner (evaluated : c.isEvaluated = true) :
    ∃ v, ctx.classify c s = some v ∧
      (s.owner = none → v.decision.isRedouble = false) ∧
      ∀ owner, s.owner = some owner →
        (¬SpoiltDouble c s → v.decision.redoubled? = none) ∧
        (SpoiltDouble c s → v.decision = .noDoubleBeaver) := by
  refine ⟨verdict ctx c s, by rw [Context.classify, if_pos evaluated], ?_, ?_⟩
  · intro centered
    have middle : s.isCentered = true := by rw [Stakes.isCentered, centered]; rfl
    by_cases spoilt : SpoiltDouble c s
    · rw [verdict_of_spoiltDouble ctx spoilt]
      rfl
    · exact (suits_verdict ctx spoilt).centered middle
  · intro owner owned
    have not_middle : s.isCentered = false := by rw [Stakes.isCentered, owned]; rfl
    refine ⟨fun sound => (suits_verdict ctx sound).owned not_middle, fun spoilt => ?_⟩
    rw [verdict_of_spoiltDouble ctx spoilt]

/-- A redouble that would lose, and that the opponent would beaver, is called a redouble. -/
theorem ownCube_suits_owner :
    let c : CubeLines Float := ⟨-0.1, -0.4, 1, none, 0, .evaluated⟩
    let s : Stakes := { Stakes.money .zero with cube := 2, owner := some .zero }
    let ctx : Context Float := ⟨.standard, ⟨fun _ _ _ => 0.5⟩⟩
    c.isEvaluated = true ∧ s.owner = some .zero ∧ ¬SpoiltDouble c s ∧
      ∃ v, ctx.classify c s = some v ∧ v.decision.redoubled? = none ∧
        v.decision = .noRedoubleBeaver := by
  intro c s ctx
  have losing : ¬c.noDouble ≤ c.doubleTake := by decide +kernel
  have sound : ¬SpoiltDouble c s := fun h => losing h.spoilt.double
  have verdict_eq : (verdict ctx c s).decision = .noRedoubleBeaver := by decide +kernel
  obtain ⟨v, classified, -, owned⟩ := classify_suits_owner ctx (s := s) (c := c) rfl
  obtain rfl : verdict ctx c s = v := Option.some.inj classified
  exact ⟨rfl, rfl, sound, _, classified, (owned .zero rfl).1 sound, verdict_eq⟩

/-- **A spoilt redouble is called a double**: a little better than leaving the cube alone if it is taken,
and a good deal worse if it is beavered. -/
theorem spoilt_redouble_called_double :
    let c : CubeLines Float := ⟨-0.3, -0.2, 1, none, 0, .evaluated⟩
    let s : Stakes := { Stakes.money .zero with cube := 2, owner := some .zero }
    let ctx : Context Float := ⟨.standard, ⟨fun _ _ _ => 0.5⟩⟩
    c.isEvaluated = true ∧ s.owner = some .zero ∧
      ctx.classify c s = some ⟨.noDoubleBeaver, c.noDouble⟩ ∧
      CubeDecision.noDoubleBeaver.redoubled? = some .noRedoubleBeaver := by
  intro c s ctx
  have spoilt : SpoiltDouble c s :=
    ⟨rfl, by decide +kernel, rfl, rfl, by decide +kernel, by decide +kernel, by decide +kernel,
      by decide +kernel, by decide +kernel⟩
  exact ⟨rfl, rfl, congrArg some (verdict_of_spoiltDouble ctx spoilt), rfl⟩

end Backgammon.Analysis
