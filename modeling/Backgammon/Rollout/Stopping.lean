import Backgammon.Rollout.Moments
import Backgammon.SettingError

/-!
# Rollout/Stopping — when a rollout has seen enough

Between batches two rules look at the contenders.  One drops contenders that are many joint standard
deviations away from the best one, and stops when a single one is left; the other stops when the
equities of all live contenders are known well enough.

* `Contender` — the results of one candidate so far.
* `separation` — how far two contenders are apart in joint standard deviations.
* `StoppingRule.check` — which contenders are live from here on, and whether to stop.
-/

namespace Backgammon.Rollout

/-- **One candidate in a rollout**: its results so far, whether it still gets trials, and the first
result of an antithetic pair that is waiting for the second. -/
structure Contender (α : Type) where
  moments : Moments α
  live : Bool
  unpaired : Option (Nat × Equities α)
deriving DecidableEq, Repr

/-- **When to stop.**  Either rule may be off. -/
structure StoppingRule (α : Type) where
  stopOnStd : Bool
  /-- Relative standard error up to which an equity is settled. -/
  stdLimit : α
  minGamesStd : Nat
  /-- A mean below this counts as zero, and its standard error is not taken relative to it. -/
  stdMeanFloor : α
  stopOnJsd : Bool
  /-- Joint standard deviations beyond which a contender is dropped. -/
  jsdLimit : α
  minGamesJsd : Nat
  /-- A dropped contender may come back. -/
  jsdReactivate : Bool
deriving DecidableEq, Repr

/-- Why a rollout stops early. -/
inductive StopReason where
  | stdLimit
  | singleCandidate
deriving DecidableEq, Repr

/-- **How far two estimates are apart**: so many joint standard deviations or, when both are exact
and differ, beyond any number of them. -/
inductive Separation (α : Type) where
  | deviations (x : α)
  | complete
deriving DecidableEq, Repr

variable {α : Type} [Scalar α]

namespace Contender

/-- A candidate without results. -/
def fresh : Contender α := ⟨.empty, true, none⟩

instance : Inhabited (Contender α) := ⟨fresh⟩

end Contender

/-- The separation goes beyond the limit. -/
def Separation.exceeds (limit : α) : Separation α → Bool
  | deviations x => decide (limit < x)
  | complete => decide (limit ≤ Scalar.largest)

/-- **Joint standard deviations between two estimates** of one number. -/
def separation [RealFunctions α] (best candidate : Moments α) (key : Component) : Separation α :=
  let difference := Scalar.abs (best.mean.get key - candidate.mean.get key)
  let b := best.stdError.get key
  let c := candidate.stdError.get key
  let joint := RealFunctions.sqrt (b * b + c * c)
  if joint == 0 then
    if 0 < difference then .complete else .deviations 0
  else .deviations (difference / joint)

namespace StoppingRule

def standard : StoppingRule α where
  stopOnStd := false
  stdLimit := 0.01
  minGamesStd := 144
  stdMeanFloor := 1e-3
  stopOnJsd := false
  jsdLimit := 2.33
  minGamesJsd := 144
  jsdReactivate := true

/-- Limits are numbers from zero up. -/
def validate (r : StoppingRule α) : Except (SettingError α) Unit := do
  checkRange "std_limit" r.stdLimit 0 Scalar.largest
  checkRange "std_mean_floor" r.stdMeanFloor 0 Scalar.largest
  checkRange "jsd_limit" r.jsdLimit 0 Scalar.largest

/-- **The leader**: the place of the contender with the greatest mean, the last of equals, among
those that have results. -/
def leader? (key : Component) (field : List (Contender α)) : Option Nat :=
  let played := field.zipIdx.filter fun (c, _) => decide (0 < c.moments.count)
  let better (x y : Contender α × Nat) : Contender α × Nat :=
    if Scalar.rankLE (x.1.moments.mean.get key) (y.1.moments.mean.get key) then y else x
  match played with
  | [] => none
  | first :: rest => some (rest.foldl better first).2

variable [RealFunctions α]

/-- Whether a contender is live after it has been held against the leader.  Too few games on either
side leave things as they are. -/
def keeps (r : StoppingRule α) (key : Component) (leader c : Contender α) : Bool :=
  if c.moments.count < r.minGamesJsd ∨ leader.moments.count < r.minGamesJsd then c.live
  else if (separation leader.moments c.moments key).exceeds r.jsdLimit then false
  else c.live || r.jsdReactivate

/-- **Drops and reactivates contenders.**  The leader is always live. -/
def eliminate (r : StoppingRule α) (key : Component) (field : List (Contender α)) :
    List (Contender α) :=
  match leader? key field with
  | none => field
  | some best =>
    let leader := field.getD best default
    field.zipIdx.map fun (c, i) =>
      { c with live := if i = best then true else r.keeps key leader c }

/-- A number of a contender is settled: its standard error, relative to its mean unless that is next
to zero, is within the limit. -/
def settled (r : StoppingRule α) (a : Moments α) (c : Component) : Bool :=
  let magnitude := Scalar.abs (a.mean.get c)
  let error := a.stdError.get c
  if magnitude < r.stdMeanFloor then decide (error ≤ r.stdLimit)
  else decide (error / magnitude ≤ r.stdLimit)

/-- **The equities of all live contenders are settled**: the cubeless one and the one by which they
are ranked. -/
def allSettled (r : StoppingRule α) (key : Component) (field : List (Contender α)) : Bool :=
  (field.filter Contender.live).all fun c =>
    decide (r.minGamesStd ≤ c.moments.count) &&
      r.settled c.moments .cubelessEquity && r.settled c.moments key

/-- **The check between batches**: the contenders with their new live flags, and the reason to stop
if there is one. -/
def check (r : StoppingRule α) (key : Component) (field : List (Contender α)) :
    List (Contender α) × Option StopReason :=
  let field := if r.stopOnJsd then r.eliminate key field else field
  if r.stopOnJsd && decide (1 < field.length) && decide (field.countP Contender.live ≤ 1) then
    (field, some .singleCandidate)
  else if r.stopOnStd && r.allSettled key field then (field, some .stdLimit)
  else (field, none)

end StoppingRule

end Backgammon.Rollout
