import Backgammon.Scalar
import Backgammon.Stakes
import Backgammon.Game

/-!
# Equities — outcome chances and equities of a position, seen by the player on roll

Gammon and backgammon chances are cumulative: a backgammon is a gammon, and a gammon is a win.  The
cubeful equity is an equity at the present cube in money play and a match winning chance in a match.

* `Equities` — the five chances and the two equities; `Component` names them.
* `Equities.isConsistent` — the chances are chances and nested as they should be.
* `Equities.invert` — the same position seen by the opponent.
* `Equities.ofOutcome` — a finished game.
-/

namespace Backgammon

/-- The name of one of the seven numbers of an evaluation. -/
inductive Component where
  | win
  | winGammon
  | winBackgammon
  | loseGammon
  | loseBackgammon
  | cubelessEquity
  | cubefulEquity
deriving DecidableEq, Repr

/-- **Chances and equities of a position.** -/
structure Equities (α : Type) where
  win : α
  winGammon : α
  winBackgammon : α
  loseGammon : α
  loseBackgammon : α
  cubeless : α
  cubeful : α
deriving DecidableEq, Repr

namespace Equities

variable {α : Type}

/-- The number of a given name. -/
def get (v : Equities α) : Component → α
  | .win => v.win
  | .winGammon => v.winGammon
  | .winBackgammon => v.winBackgammon
  | .loseGammon => v.loseGammon
  | .loseBackgammon => v.loseBackgammon
  | .cubelessEquity => v.cubeless
  | .cubefulEquity => v.cubeful

/-- The seven numbers given by a function of their names. -/
def ofFn (f : Component → α) : Equities α :=
  ⟨f .win, f .winGammon, f .winBackgammon, f .loseGammon, f .loseBackgammon, f .cubelessEquity,
    f .cubefulEquity⟩

/-- Changes the number of one name. -/
def set (v : Equities α) (c : Component) (a : α) : Equities α :=
  ofFn fun d => if d = c then a else v.get d

def splat (a : α) : Equities α := ⟨a, a, a, a, a, a, a⟩

def map (f : α → α) (v : Equities α) : Equities α :=
  ⟨f v.win, f v.winGammon, f v.winBackgammon, f v.loseGammon, f v.loseBackgammon, f v.cubeless,
    f v.cubeful⟩

def zipWith (f : α → α → α) (v w : Equities α) : Equities α :=
  ⟨f v.win w.win, f v.winGammon w.winGammon, f v.winBackgammon w.winBackgammon,
    f v.loseGammon w.loseGammon, f v.loseBackgammon w.loseBackgammon, f v.cubeless w.cubeless,
    f v.cubeful w.cubeful⟩

def toList (v : Equities α) : List α :=
  [v.win, v.winGammon, v.winBackgammon, v.loseGammon, v.loseBackgammon, v.cubeless, v.cubeful]

def withCubeful (v : Equities α) (a : α) : Equities α := { v with cubeful := a }

@[ext] theorem ext_get {v w : Equities α} (h : ∀ c, v.get c = w.get c) : v = w := by
  cases v; cases w
  simp only [mk.injEq]
  exact ⟨h .win, h .winGammon, h .winBackgammon, h .loseGammon, h .loseBackgammon,
    h .cubelessEquity, h .cubefulEquity⟩

@[simp] theorem get_ofFn (f : Component → α) (c : Component) : (ofFn f).get c = f c := by
  cases c <;> rfl

@[simp] theorem get_set (v : Equities α) (c d : Component) (a : α) :
    (v.set c a).get d = if d = c then a else v.get d := get_ofFn _ d

@[simp] theorem get_splat (a : α) (c : Component) : (splat a).get c = a := by cases c <;> rfl

@[simp] theorem get_map (f : α → α) (v : Equities α) (c : Component) :
    (v.map f).get c = f (v.get c) := by cases c <;> rfl

@[simp] theorem get_zipWith (f : α → α → α) (v w : Equities α) (c : Component) :
    (zipWith f v w).get c = f (v.get c) (w.get c) := by cases c <;> rfl

variable [Scalar α]

/-- All numbers zero. -/
def zero : Equities α := splat 0

instance : Inhabited (Equities α) := ⟨zero⟩

/-- **Cubeless equity** of the five chances: twice the winning chance less one, with the net gammons
and backgammons added. -/
def cubelessOf (win winGammon winBackgammon loseGammon loseBackgammon : α) : α :=
  2 * win - 1 + winGammon - loseGammon + winBackgammon - loseBackgammon

/-- The five chances with the cubeless equity that follows from them, the cube not yet counted. -/
def ofChances (win winGammon winBackgammon loseGammon loseBackgammon : α) : Equities α :=
  let e := cubelessOf win winGammon winBackgammon loseGammon loseBackgammon
  ⟨win, winGammon, winBackgammon, loseGammon, loseBackgammon, e, e⟩

/-- The cubeless equity that follows from the chances in `v`. -/
def chancesEquity (v : Equities α) : α :=
  cubelessOf v.win v.winGammon v.winBackgammon v.loseGammon v.loseBackgammon

/-- **A finished game**, seen by the player on roll in the final board, with its cubeful value. -/
def ofOutcome (o : Outcome) (cubeful : α) : Equities α :=
  let gammon : α := if o.kind = .single then 0 else 1
  let backgammon : α := if o.kind = .backgammon then 1 else 0
  let v := match o.winner with
    | .onRoll => ofChances 1 gammon backgammon 0 0
    | .opponent => ofChances 0 0 0 gammon backgammon
  v.withCubeful cubeful

/-- **The chances are chances**, and nested: backgammons within gammons, gammons within wins, on
either side. -/
def isConsistent (v : Equities α) : Bool :=
  Scalar.within 0 1 v.win && Scalar.within 0 v.win v.winGammon &&
    Scalar.within 0 v.winGammon v.winBackgammon && Scalar.within 0 (1 - v.win) v.loseGammon &&
    Scalar.within 0 v.loseGammon v.loseBackgammon

/-- **The same position seen by the opponent.**  Equities change sign; a match winning chance turns
into the opponent's. -/
def invert (v : Equities α) (s : Stakes) : Equities α where
  win := 1 - v.win
  winGammon := v.loseGammon
  winBackgammon := v.loseBackgammon
  loseGammon := v.winGammon
  loseBackgammon := v.winBackgammon
  cubeless := -v.cubeless
  cubeful := if s.isMoney then -v.cubeful else 1 - v.cubeful

/-- Every chance moved into `[0, 1]`, the equities left as they are. -/
def clampChances (v : Equities α) : Equities α :=
  { v with
    win := Scalar.clampUnit v.win
    winGammon := Scalar.clampUnit v.winGammon
    winBackgammon := Scalar.clampUnit v.winBackgammon
    loseGammon := Scalar.clampUnit v.loseGammon
    loseBackgammon := Scalar.clampUnit v.loseBackgammon }

/-- The vector as it is when consistent, and with its chances clamped when not. -/
def repaired (v : Equities α) : Equities α := if v.isConsistent then v else v.clampChances

end Equities

end Backgammon
