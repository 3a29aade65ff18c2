/-!
# Player — the two players, and what is held for each of them

* `Player` — player zero and player one; `opponent` is an involution without fixed points.
* `PerPlayer` — one value for each player, read by `get`, changed at one player by `update`.
-/

namespace Backgammon

/-- One of the two players. -/
inductive Player where
  | zero
  | one
deriving DecidableEq, Repr

namespace Player

/-- The other player. -/
def opponent : Player → Player
  | zero => one
  | one => zero

@[simp] theorem opponent_opponent (p : Player) : p.opponent.opponent = p := by cases p <;> rfl

@[simp] theorem opponent_ne (p : Player) : p.opponent ≠ p := by cases p <;> decide

theorem opponent_eq_iff {p q : Player} : p.opponent = q ↔ p ≠ q := by
  cases p <;> cases q <;> decide

theorem eq_opponent_of_ne {p q : Player} (h : q ≠ p) : q = p.opponent := by
  cases p <;> cases q <;> first | rfl | exact absurd rfl h

end Player

/-- **A value held for each of the two players.** -/
structure PerPlayer (β : Type) where
  zero : β
  one : β
deriving DecidableEq, Repr

namespace PerPlayer

variable {β γ δ : Type}

/-- The same value for both players. -/
def splat (b : β) : PerPlayer β := ⟨b, b⟩

/-- The value held for `p`. -/
def get (x : PerPlayer β) : Player → β
  | .zero => x.zero
  | .one => x.one

/-- The value held for each player is a function of the player. -/
def ofFn (f : Player → β) : PerPlayer β := ⟨f .zero, f .one⟩

/-- Changes the value held for `p`. -/
def update (x : PerPlayer β) (p : Player) (f : β → β) : PerPlayer β :=
  match p with
  | .zero => { x with zero := f x.zero }
  | .one => { x with one := f x.one }

def map (f : β → γ) (x : PerPlayer β) : PerPlayer γ := ⟨f x.zero, f x.one⟩

def zipWith (f : β → γ → δ) (x : PerPlayer β) (y : PerPlayer γ) : PerPlayer δ :=
  ⟨f x.zero y.zero, f x.one y.one⟩

/-- The two players change seats. -/
def swap (x : PerPlayer β) : PerPlayer β := ⟨x.one, x.zero⟩

instance [Add β] : Add (PerPlayer β) := ⟨zipWith (· + ·)⟩

@[ext] theorem ext_get {x y : PerPlayer β} (h : ∀ p, x.get p = y.get p) : x = y := by
  cases x; cases y
  exact congr (congrArg mk (h .zero)) (h .one)

@[simp] theorem get_splat (b : β) (p : Player) : (splat b).get p = b := by cases p <;> rfl

@[simp] theorem get_ofFn (f : Player → β) (p : Player) : (ofFn f).get p = f p := by cases p <;> rfl

@[simp] theorem get_map (f : β → γ) (x : PerPlayer β) (p : Player) :
    (x.map f).get p = f (x.get p) := by cases p <;> rfl

@[simp] theorem get_zipWith (f : β → γ → δ) (x : PerPlayer β) (y : PerPlayer γ) (p : Player) :
    (zipWith f x y).get p = f (x.get p) (y.get p) := by cases p <;> rfl

@[simp] theorem get_add [Add β] (x y : PerPlayer β) (p : Player) :
    (x + y).get p = x.get p + y.get p := by cases p <;> rfl

@[simp] theorem get_swap (x : PerPlayer β) (p : Player) : x.swap.get p = x.get p.opponent := by
  cases p <;> rfl

@[simp] theorem get_update_self (x : PerPlayer β) (p : Player) (f : β → β) :
    (x.update p f).get p = f (x.get p) := by cases p <;> rfl

@[simp] theorem get_update_opponent (x : PerPlayer β) (p : Player) (f : β → β) :
    (x.update p f).get p.opponent = x.get p.opponent := by cases p <;> rfl

end PerPlayer

end Backgammon
