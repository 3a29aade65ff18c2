import Backgammon.Equities

/-!
# Rollout/Moments — running mean and variance of trial results

* `Moments.push` — one more result; the mean and the sum of squared deviations are kept up to date.
* `Moments.variance`, `Moments.stdError` — sample variance and standard error of every number, zero
  while there are too few results.
-/

namespace Backgammon.Rollout

/-- **Running moments** of vectors: their count, mean, and summed squared deviation from it. -/
structure Moments (α : Type) where
  count : Nat
  mean : Equities α
  deviation : Equities α
deriving DecidableEq, Repr

namespace Moments

variable {α : Type} [Scalar α]

def empty : Moments α := ⟨0, .zero, .zero⟩

instance : Inhabited (Moments α) := ⟨empty⟩

/-- **One more result.**  The deviation grows by the product of its distances from the old and the
new mean. -/
def push (a : Moments α) (v : Equities α) : Moments α :=
  let n : α := ((a.count + 1 : Nat) : α)
  let before := Equities.zipWith (· - ·) v a.mean
  let mean := Equities.zipWith (fun m d => m + d / n) a.mean before
  let after := Equities.zipWith (· - ·) v mean
  { count := a.count + 1
    mean := mean
    deviation := Equities.zipWith (· + ·) a.deviation (Equities.zipWith (· * ·) before after) }

/-- The moments of a list of results, one after the other. -/
def ofList (vs : List (Equities α)) : Moments α := vs.foldl push empty

/-- **Sample variance**, zero with fewer than two results. -/
def variance (a : Moments α) : Equities α :=
  if a.count < 2 then .zero
  else
    let n : α := a.count
    a.deviation.map (· / (n - 1))

/-- **Standard error of the mean**, zero without results. -/
def stdError [RealFunctions α] (a : Moments α) : Equities α :=
  if a.count = 0 then .zero
  else
    let n : α := a.count
    a.variance.map fun x => RealFunctions.sqrt (x / n)

@[simp] theorem count_push (a : Moments α) (v : Equities α) : (a.push v).count = a.count + 1 := rfl

theorem get_mean_push (a : Moments α) (v : Equities α) (k : Component) :
    (a.push v).mean.get k =
      a.mean.get k + (v.get k - a.mean.get k) / ((a.count + 1 : Nat) : α) := by
  simp only [push, Equities.get_zipWith]

theorem get_deviation_push (a : Moments α) (v : Equities α) (k : Component) :
    (a.push v).deviation.get k = a.deviation.get k +
      (v.get k - a.mean.get k) * (v.get k - (a.push v).mean.get k) := by
  simp only [push, Equities.get_zipWith]

theorem ofList_append_singleton (vs : List (Equities α)) (v : Equities α) :
    ofList (vs ++ [v]) = (ofList vs).push v := by simp [ofList]

end Moments

end Backgammon.Rollout
