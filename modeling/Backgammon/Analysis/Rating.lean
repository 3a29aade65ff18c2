import Backgammon.Analysis.Statistics

/-!
# Analysis/Rating — error rates and results as ratings

* `RatingCategory`, `rating` — nine classes of error per move, from the best whose bound it meets.
* `LuckRating`, `Context.luckRating` — average luck per move on the scale of single rolls.
* `RatingCalibration` — error rates as rating points lost over an `n` point match.
* `Context.absoluteRating?` — the rating that the error rates make likely;
  `relativeRating?` — the rating difference that a match winning chance stands for.
-/

namespace Backgammon.Analysis

/-- **Class of an error rate**, worst first. -/
inductive RatingCategory where
  | undefined
  | awful
  | beginner
  | casualPlayer
  | intermediate
  | advanced
  | expert
  | worldClass
  | supernatural
deriving DecidableEq, Repr

namespace RatingCategory

/-- Place in the order. -/
def rank : RatingCategory → Nat
  | undefined => 0
  | awful => 1
  | beginner => 2
  | casualPlayer => 3
  | intermediate => 4
  | advanced => 5
  | expert => 6
  | worldClass => 7
  | supernatural => 8

instance : LE RatingCategory := ⟨fun a b => a.rank ≤ b.rank⟩

instance (a b : RatingCategory) : Decidable (a ≤ b) := inferInstanceAs (Decidable (a.rank ≤ b.rank))

/-- The class in words. -/
def name : RatingCategory → String
  | undefined => "Undefined"
  | awful => "Awful!"
  | beginner => "Beginner"
  | casualPlayer => "Casual player"
  | intermediate => "Intermediate"
  | advanced => "Advanced"
  | expert => "Expert"
  | worldClass => "World class"
  | supernatural => "Supernatural"

end RatingCategory

/-- Average luck per move, unluckiest first. -/
inductive LuckRating where
  | goToHell
  | badDice
  | none
  | goodDice
  | cheater
deriving DecidableEq, Repr

/-- Place of a luck rating in its order. -/
def LuckRating.rank : LuckRating → Nat
  | goToHell => 0
  | badDice => 1
  | none => 2
  | goodDice => 3
  | cheater => 4

variable {α : Type} [Scalar α]

/-- The classes with the error per move that they stay below, best first. -/
def ratingBounds : List (RatingCategory × α) :=
  [(.supernatural, 0.002), (.worldClass, 0.005), (.expert, 0.008), (.advanced, 0.012),
    (.intermediate, 0.018), (.casualPlayer, 0.026), (.beginner, 0.035), (.awful, 1e38)]

/-- **The class of an error rate**: the best whose bound lies above it. -/
def rating (errorPerMove : α) : RatingCategory :=
  ((ratingBounds.find? fun (_, bound) => decide (errorPerMove < bound)).map Prod.fst).getD .undefined

/-- **The class of the average luck per move**, ten moves being rated like one roll. -/
def Context.luckRating (ctx : Context α) (luckPerMove : α) : LuckRating :=
  match ctx.luck (luckPerMove * 10) with
  | .veryBad => .goToHell
  | .bad => .badDice
  | .none => .none
  | .good => .goodDice
  | .veryGood => .cheater

/-- **Calibration of error rates** as rating points, affine in the inverse of the match length. -/
structure RatingCalibration (α : Type) where
  chequerBase : α
  chequerPerLength : α
  cubeBase : α
  cubePerLength : α

namespace RatingCalibration

def standard : RatingCalibration α := ⟨8798, 25526, 863, -519⟩

/-- Rating points lost by an error per move. -/
def chequerLoss (k : RatingCalibration α) (errorPerMove : α) (matchTo : Nat) : α :=
  errorPerMove * (k.chequerBase + k.chequerPerLength / (matchTo : α))

/-- Rating points lost by an error per cube decision. -/
def cubeLoss (k : RatingCalibration α) (errorPerDecision : α) (matchTo : Nat) : α :=
  errorPerDecision * (k.cubeBase + k.cubePerLength / (matchTo : α))

end RatingCalibration

namespace Statistics

variable (t : Statistics α) (p : Player) (matchTo : Nat)

/-- Rating points lost by chequer play; none for money play or without a choice of play. -/
def chequerRatingLoss? : Option α :=
  if matchTo = 0 then none
  else
    (t.rates p .normalized).checkerPerMove.map fun rate =>
      RatingCalibration.standard.chequerLoss rate matchTo

/-- Rating points lost with the cube; none for money play or without close decisions. -/
def cubeRatingLoss? : Option α :=
  if matchTo = 0 then none
  else
    (t.rates p .normalized).cubePerDecision.map fun rate =>
      RatingCalibration.standard.cubeLoss rate matchTo

end Statistics

/-- **The rating that the error rates make likely.**  A missing rate counts as no error, but some
decision there must be. -/
def Context.absoluteRating? (ctx : Context α) (t : Statistics α) (p : Player) (matchTo : Nat) :
    Option α :=
  if matchTo = 0 || t.unforcedMoves.get p + t.closeCube.get p == 0 then none
  else
    let rates := t.rates p .normalized
    let k : RatingCalibration α := .standard
    let loss := k.chequerLoss (rates.checkerPerMove.getD 0) matchTo +
      k.cubeLoss (rates.cubePerDecision.getD 0) matchTo
    some (ctx.options.ratingOffset - loss)

variable [RealFunctions α]

/-- **The rating difference behind a match winning chance**, from the scale on which it is the
logistic function; at least `-2100`. -/
def relativeRating? (chance : α) (matchTo : Nat) : Option α :=
  if matchTo ≠ 0 ∧ 0 < chance ∧ chance < 1 then
    let x := -2000 / RealFunctions.sqrt (matchTo : α) * RealFunctions.log10 (1 / chance - 1)
    some (Scalar.max x (-2100))
  else none

/-- **The rating difference without luck**: what player zero won over even chances, less the luck. -/
def Statistics.luckBasedRating? (t : Statistics α) (matchTo : Nat) : Option α :=
  let chance := 1 / 2 + t.actualResult.zero.sum - t.luck.zero.unnormalized + t.luck.one.unnormalized
  relativeRating? chance matchTo

end Backgammon.Analysis
