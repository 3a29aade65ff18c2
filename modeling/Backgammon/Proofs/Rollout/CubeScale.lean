import Backgammon.Proofs.Rollout.CubeTurns
import Mathlib.Algebra.Order.Ring.Rat
import Mathlib.Data.List.Forall2

/-!
# Proofs/Rollout/CubeScale — money trials from two cubes

    cube 1 ──double──▸ 2 ──redouble──▸ 4 ──▸ v
    cube 3 ──double──▸ 6 ──redouble──▸ 12 ──▸ v

A money equity is one at the present cube, and a result one at the cube of the start.  What the cube is
at the start therefore drops out of a trial, as long as the evaluator does not look at it: from two
cubes a trial runs through the same boards, with the cubes in one ratio.

* `Stakes.atCube`, `Trial.atCubes` — the same stakes and the same trial at other cubes.
* `Arena.IgnoresCube` — an evaluator that does not look at the height of the cube; then the moves and
  cube actions of money play do not depend on it either.
* `Trial.Scales` — two cubes in the ratio of the trial's own.
* `Abreast` — two runs in one world that fail alike or come to related values.
* `Arena.Unsaturated` — no double goes beyond the largest cube.
* `IgnoresCube.turn`, `IgnoresCube.playOn` — one turn keeps the ratio, unless a double saturates, and so
  do all of them.
* `money_ignores_cube` — trials from two cubes run alike and come to the same.
-/

namespace Backgammon

open Analysis

/-! ## Stakes at another cube -/

namespace Stakes

/-- **The same stakes at another cube.** -/
def atCube (s : Stakes) (cube : Nat) : Stakes := { s with cube }

/-- **Doubles from two first cubes** that differ only in the cube, which is in the ratio of the first
ones. -/
def DoublesScale (cube cube' : Nat) : List Stakes → List Stakes → Prop :=
  List.Forall₂ fun d d' => ∃ k, d' = d.atCube k ∧ d.cube * cube' = k * cube

variable (s : Stakes) (k : Nat)

@[simp] theorem isMoney_atCube : (s.atCube k).isMoney = s.isMoney := rfl

@[simp] theorem onRoll_atCube : (s.atCube k).onRoll = s.onRoll := rfl

@[simp] theorem swapTurn_atCube : (s.atCube k).swapTurn = s.swapTurn.atCube k := rfl

@[simp] theorem doubled_atCube :
    (s.atCube k).doubled = s.doubled.atCube (min (2 * k) largestCube) := rfl

variable {s} (money : s.isMoney = true)
include money

/-- In money play the cube is available at every height. -/
theorem cubeAvailable_atCube : (s.atCube k).cubeAvailable = s.cubeAvailable := by
  rw [cubeAvailable, cubeAvailable, isMoney_atCube, money]
  rfl

end Stakes

section

variable {α : Type} [Scalar α] (met : MatchEquity α) {s : Stakes} (money : s.isMoney = true) (k : Nat)
include money

namespace MatchEquity

theorem outcomeValue_atCube (o : Outcome) :
    met.outcomeValue (s.atCube k) o = met.outcomeValue s o := by
  rw [outcomeValue, outcomeValue, s.isMoney_atCube, money]
  rfl

theorem valueEquity_atCube (value : α) :
    met.valueEquity (s.atCube k) value = met.valueEquity s value := by
  rw [valueEquity, valueEquity, s.isMoney_atCube, money]
  rfl

theorem normalized_atCube (v : Equities α) (cubeful : Bool) :
    met.normalized (s.atCube k) v cubeful = met.normalized s v cubeful := by
  rw [normalized, normalized, met.valueEquity_atCube money]

end MatchEquity

theorem CubeLines.ofEvaluations_atCube (noDouble doubleTake : Equities α) (p : Provenance) :
    CubeLines.ofEvaluations met (s.atCube k) noDouble doubleTake p =
      CubeLines.ofEvaluations met s noDouble doubleTake p := by
  rw [ofEvaluations, ofEvaluations, met.valueEquity_atCube money, met.valueEquity_atCube money,
    s.isMoney_atCube, money]
  rfl

/-- **The verdict on given lines** goes by the owner of the cube and not by its height. -/
theorem Analysis.verdict_atCube (ctx : Context α) (c : CubeLines α) :
    verdict ctx c (s.atCube k) = verdict ctx c s := by
  rw [verdict, verdict, Stakes.cubeAvailable_atCube k money]
  rfl

end

namespace Rollout

/-! ## Evaluators that do not look at the cube -/

section

variable {m : Type → Type} [Monad m] {δ α Board Move : Type} [Scalar α]

/-- **The evaluator does not look at the height of the cube.** -/
def Arena.IgnoresCube (a : Arena m δ α Board Move) : Prop :=
  ∀ board s k c, a.evaluator board (s.atCube k) c = a.evaluator board s c

namespace Arena.IgnoresCube

variable {a : Arena m δ α Board Move} (ignores : a.IgnoresCube)
include ignores

theorem evaluate (board : Board) (s : Stakes) (k : Nat) (c : EvalSettings α) :
    a.evaluate board (s.atCube k) c = a.evaluate board s c := by
  rw [Arena.evaluate, Arena.evaluate, ignores]

variable {s : Stakes} (money : s.isMoney = true) (k : Nat)
include money

theorem equityAfter (next : Board) (c : EvalSettings α) :
    a.equityAfter next (s.atCube k) c = a.equityAfter next s c := by
  have money : s.swapTurn.isMoney = true := money
  simp only [Arena.equityAfter, Stakes.swapTurn_atCube, ignores.evaluate,
    a.met.outcomeValue_atCube money, a.met.valueEquity_atCube money, a.met.normalized_atCube money]

theorem rate (board : Board) (c : EvalSettings α) (index : Nat) (move : Move) :
    a.rate board (s.atCube k) c index move = a.rate board s c index move := by
  rw [Arena.rate, Arena.rate, ignores.equityAfter money]

theorem playRoll (board : Board) (roll : Dice) (c : EvalSettings α) :
    a.playRoll board (s.atCube k) roll c = a.playRoll board s roll c := by
  simp only [Arena.playRoll, Arena.chooseMove, ignores.rate money]

/-- **Money cube actions** do not depend on the height of the cube. -/
theorem cubeAction (board : Board) (c : EvalSettings α) :
    a.cubeAction board (s.atCube k) c = a.cubeAction board s c := by
  simp only [Arena.cubeAction, Stakes.doubled_atCube, Stakes.isMoney_atCube, ignores.evaluate,
    CubeLines.ofEvaluations_atCube _ money, Analysis.verdict_atCube money, money, if_true]

end Arena.IgnoresCube

end

/-! ## A trial at other cubes -/

section

variable {δ α Board : Type}

/-- **The same trial at other cubes**, now and at the start. -/
def Trial.atCubes (t : Trial δ α Board) (cube startCube : Nat) : Trial δ α Board :=
  { t with stakes := t.stakes.atCube cube, startCube }

/-- **A money trial scales** to two cubes: they are in the ratio of its own. -/
structure Trial.Scales (t : Trial δ α Board) (k c : Nat) : Prop where
  money : t.stakes.isMoney = true
  startCube_pos : 0 < t.startCube
  pos : 0 < c
  ratio : t.stakes.cube * c = k * t.startCube

end

/-- **A money equity on its way back to the start** keeps its value at cubes in the same ratio. -/
theorem toStart_atCube (v : Equities Rat) {s : Stakes} (money : s.isMoney = true) (flipped : Bool)
    {startCube k c : Nat} (startCube_pos : 0 < startCube) (pos : 0 < c)
    (ratio : s.cube * c = k * startCube) :
    toStart v (s.atCube k) flipped c = toStart v s flipped startCube := by
  have same : v.cubeful * (k : Rat) / (c : Rat) = v.cubeful * (s.cube : Rat) / (startCube : Rat) := by
    have ratio : (k : Rat) * startCube = s.cube * c := by exact_mod_cast ratio.symm
    have c_ne : (c : Rat) ≠ 0 := Nat.cast_ne_zero.2 pos.ne'
    have startCube_ne : (startCube : Rat) ≠ 0 := Nat.cast_ne_zero.2 startCube_pos.ne'
    rw [mul_div_assoc, mul_div_assoc, (div_eq_div_iff c_ne startCube_ne).2 ratio]
  rw [toStart, toStart, s.isMoney_atCube, money]
  exact congrArg (fun e => if flipped then (v.withCubeful e).invert s else v.withCubeful e) same

/-! ## Runs abreast -/

section

variable {σ ε β γ β' γ' : Type}

/-- **Two runs abreast**: they leave the world in the same state, and fail alike or come to related
values. -/
inductive Abreast (r : β → γ → Prop) : Except ε β × σ → Except ε γ × σ → Prop
  | error (e : ε) (w : σ) : Abreast r (.error e, w) (.error e, w)
  | ok {b : β} {c : γ} (related : r b c) (w : σ) : Abreast r (.ok b, w) (.ok c, w)

namespace Abreast

theorem refl (p : Except ε β × σ) : Abreast Eq p p := by
  obtain ⟨e | b, w⟩ := p
  · exact .error e w
  · exact .ok rfl w

theorem eq_of_eq {p q : Except ε β × σ} (h : Abreast Eq p q) : p = q := by
  cases h with
  | error e w => rfl
  | ok related w => rw [related]

/-- What follows two values is run abreast, from the world in which they were found. -/
theorem bind {r : β → γ → Prop} {r' : β' → γ' → Prop} {x : ExceptT ε (StateM σ) β}
    {y : ExceptT ε (StateM σ) γ} {f : β → ExceptT ε (StateM σ) β'} {g : γ → ExceptT ε (StateM σ) γ'}
    {w : σ} (h : Abreast r (x.run.run w) (y.run.run w))
    (rest : ∀ b c w', Yields x w b w' → Yields y w c w' → r b c →
      Abreast r' ((f b).run.run w') ((g c).run.run w')) :
    Abreast r' ((x >>= f).run.run w) ((y >>= g).run.run w) := by
  rcases hx : x.run.run w with ⟨e | b, w'⟩ <;> rcases hy : y.run.run w with ⟨e' | c, w''⟩ <;>
    rw [hx, hy] at h
  case ok.ok =>
    cases h with
    | ok related =>
      rw [Yields.run_bind hx, Yields.run_bind hy]
      exact rest b c w' hx hy related
  case error.error =>
    cases h with
    | error =>
      rw [ExceptT.run_bind, ExceptT.run_bind, StateT.run_bind, StateT.run_bind, hx, hy]
      exact .error e w'
  all_goals cases h

end Abreast

end

/-! ## One turn -/

variable {σ δ Board Move : Type}

/-- **Turns of trials that scale**: they end alike, or lead to trials that scale. -/
inductive Turn.Scaled (c : Nat) : Turn δ Rat Board → Turn δ Rat Board → Prop
  | over (v : Equities Rat) : Scaled c (.over v) (.over v)
  | interrupted : Scaled c .interrupted .interrupted
  | next {t : Trial δ Rat Board} {k : Nat} (h : t.Scales k c) :
    Scaled c (.next t) (.next (t.atCubes k c))

namespace Trial.Scales

variable {t : Trial δ Rat Board} {k c : Nat} (h : t.Scales k c)
include h

theorem result_eq (v : Equities Rat) : (t.atCubes k c).result v = t.result v := by
  have same := toStart_atCube v h.money t.flipped h.startCube_pos h.pos h.ratio
  rw [Trial.result, Trial.result]
  exact congrArg (Equities.zipWith (· - ·) · t.luck) same

theorem finished_eq (met : MatchEquity Rat) (o : Outcome) :
    (t.atCubes k c).result (.ofOutcome o (met.outcomeValue (t.atCubes k c).stakes o)) =
      t.result (.ofOutcome o (met.outcomeValue t.stakes o)) := by
  have value : met.outcomeValue (t.atCubes k c).stakes o = met.outcomeValue t.stakes o :=
    met.outcomeValue_atCube h.money k o
  rw [h.result_eq, value]

/-- A double that fits at either cube keeps the ratio. -/
theorem doubled (fits : 2 * t.stakes.cube ≤ Stakes.largestCube) :
    ({ t with stakes := t.stakes.doubled } : Trial δ Rat Board).Scales (2 * k) c where
  money := h.money
  startCube_pos := h.startCube_pos
  pos := h.pos
  ratio := by
    change min (2 * t.stakes.cube) Stakes.largestCube * c = 2 * k * t.startCube
    rw [Nat.min_eq_left fits, Nat.mul_assoc, h.ratio, Nat.mul_assoc]

theorem symm : (t.atCubes k c).Scales t.stakes.cube t.startCube where
  money := h.money
  startCube_pos := h.pos
  pos := h.startCube_pos
  ratio := h.ratio.symm

end Trial.Scales

namespace Arena

variable {a : Arena (StateM σ) δ Rat Board Move}

/-- **A double is taken** in a turn, before the roll. -/
structure Takes (a : Arena (StateM σ) δ Rat Board Move) (t : Trial δ Rat Board) (w w' : σ) : Prop where
  running : a.game.outcome? t.board = none
  uncut : a.truncates t = false
  takes : ∃ w₁, (a.interrupted t.ply).run w = (false, w₁) ∧ Yields (a.cubeTurn t) w₁ .taken w'

namespace IgnoresCube

variable (ignores : a.IgnoresCube) {t : Trial δ Rat Board} {k c : Nat} (h : t.Scales k c)
include ignores h

theorem cubeTurn : a.cubeTurn (t.atCubes k c) = a.cubeTurn t := by
  have may : a.mayDouble (t.stakes.atCube k) t.ply = a.mayDouble t.stakes t.ply := by
    rw [mayDouble, mayDouble, Stakes.cubeAvailable_atCube k h.money]
  simp only [Arena.cubeTurn, Trial.atCubes, may, ignores.cubeAction h.money, Stakes.onRoll_atCube]

theorem rollValue (roll : Dice) : a.rollValue (t.atCubes k c) roll = a.rollValue t roll := by
  have money : t.stakes.swapTurn.isMoney = true := h.money
  have same (v : Equities Rat) :
      toStart v (t.stakes.swapTurn.atCube k) (!t.flipped) c =
        toStart v t.stakes.swapTurn (!t.flipped) t.startCube :=
    toStart_atCube v money _ h.startCube_pos h.pos h.ratio
  simp only [Arena.rollValue, Trial.atCubes, Stakes.onRoll_atCube, Stakes.swapTurn_atCube,
    ignores.playRoll h.money, ignores.evaluate, a.met.outcomeValue_atCube money, same]

/-- **A roll is worth the same and played the same** at other cubes. -/
theorem rollAndPlay :
    a.rollAndPlay (t.atCubes k c) = (fun t' => t'.atCubes k c) <$> a.rollAndPlay t := by
  have luck (roll : Dice) : a.rollLuck (t.atCubes k c) roll = a.rollLuck t roll := by
    simp only [rollLuck, ignores.rollValue h]
    rfl
  have played (roll : Dice) (e : EvalSettings Rat) :
      a.playRoll (t.atCubes k c).board (t.atCubes k c).stakes roll e =
        a.playRoll t.board t.stakes roll e := ignores.playRoll h.money k _ _ _
  simp only [Arena.rollAndPlay, luck, played, map_bind]
  refine bind_congr fun rolled => ?_
  split <;> simp only [map_bind, map_pure] <;> rfl

/-- **A roll keeps the ratio of the cubes.** -/
theorem next_rollAndPlay (w : σ) :
    Abreast (Turn.Scaled c) ((Turn.next <$> a.rollAndPlay t).run.run w)
      ((Turn.next <$> a.rollAndPlay (t.atCubes k c)).run.run w) := by
  rw [ignores.rollAndPlay h, Functor.map_map, map_eq_pure_bind, map_eq_pure_bind]
  refine (Abreast.refl _).bind ?_
  rintro t' _ w' played - rfl
  obtain ⟨board, luck, dice, rfl, -, -⟩ := exists_eq_of_rollAndPlay played
  exact .ok (.next ⟨h.money, h.startCube_pos, h.pos, h.ratio⟩) w'

theorem takes_iff {w w' : σ} : a.Takes (t.atCubes k c) w w' ↔ a.Takes t w w' := by
  have same := ignores.cubeTurn h
  constructor
  · rintro ⟨running, uncut, w₁, asked, taken⟩
    exact ⟨running, uncut, w₁, asked, same ▸ taken⟩
  · rintro ⟨running, uncut, w₁, asked, taken⟩
    exact ⟨running, uncut, w₁, asked, same.symm ▸ taken⟩

/-- **One turn keeps the ratio of the cubes**, unless a double does not fit. -/
theorem turn {w : σ} (fits : ∀ w', a.Takes t w w' →
      2 * t.stakes.cube ≤ Stakes.largestCube ∧ 2 * k ≤ Stakes.largestCube) :
    Abreast (Turn.Scaled c) ((a.turn t).run.run w) ((a.turn (t.atCubes k c)).run.run w) := by
  cases running : a.game.outcome? t.board with
  | some o =>
    rw [turn_eq_of_finished running, turn_eq_of_finished (t := t.atCubes k c) running, h.finished_eq]
    exact .ok (.over _) w
  | none =>
    have running' : a.game.outcome? (t.atCubes k c).board = none := running
    cases cut : a.truncates t with
    | true =>
      rw [turn_eq_of_cut running cut, turn_eq_of_cut running' cut]
      simp only [Trial.atCubes, ignores.evaluate]
      refine (Abreast.refl _).bind ?_
      rintro v _ w' - - rfl
      rw [← h.result_eq]
      exact .ok (.over _) w'
    | false =>
      rw [turn_eq_of_running running cut, turn_eq_of_running running' cut]
      refine (Abreast.refl _).bind ?_
      rintro stop _ w₁ asked - rfl
      replace asked := Yields.lift_iff.1 asked
      cases stop with
      | true => exact .ok .interrupted w₁
      | false =>
        rw [if_neg Bool.false_ne_true, ignores.cubeTurn h]
        refine (Abreast.refl _).bind ?_
        rintro act _ w₂ turned - rfl
        cases act with
        | unturned => exact ignores.next_rollAndPlay h w₂
        | passed v =>
          rw [afterCube, afterCube, h.result_eq]
          exact .ok (.over _) w₂
        | taken =>
          -- neither cube stops at the largest one, so that both are doubled
          obtain ⟨fits, fits'⟩ := fits w₂ ⟨running, cut, w₁, asked, turned⟩
          have cubes : (t.atCubes k c).stakes.doubled = t.stakes.doubled.atCube (2 * k) := by
            rw [Trial.atCubes, Stakes.doubled_atCube, Nat.min_eq_left fits']
          simp only [afterCube, cubes]
          exact ignores.next_rollAndPlay (h.doubled fits) w₂

/-- A trial ends at other cubes as it does at its own, with the same result. -/
theorem endsBy {w w' : σ} {e : TrialEnd} {v : Equities Rat} (ends : a.EndsBy t w e v w') :
    a.EndsBy (t.atCubes k c) w e v w' := by
  cases ends with
  | finished ended =>
    rw [← h.finished_eq]
    exact .finished ended
  | @cut v _ running cut estimate =>
    rw [← h.result_eq]
    exact .cut running cut ((ignores.evaluate ..).symm ▸ estimate)
  | @passed v _ _ running uncut uninterrupted offer =>
    rw [← h.result_eq]
    exact .passed running uncut uninterrupted ((ignores.cubeTurn h).symm ▸ offer)

end IgnoresCube

/-! ## Whole trials -/

/-- **No double saturates** in a trial: wherever a double is taken, twice the cube is still a cube. -/
def Unsaturated (a : Arena (StateM σ) δ Rat Board Move) (t₀ : Trial δ Rat Board) (w₀ : σ) : Prop :=
  ∀ doubles t w, a.Course t₀ w₀ doubles t w → ∀ w', a.Takes t w w' →
    2 * t.stakes.cube ≤ Stakes.largestCube

variable {t t' t₀ t₀' : Trial δ Rat Board} {w w' w₀ : σ} {taken : Bool}
  {doubles doubles' : List Stakes}

/-- A turn that leads on says whether a double was taken. -/
theorem GoesOn.takes_iff (goes : a.GoesOn t w taken t' w') :
    (∃ w₁, a.Takes t w w₁) ↔ taken = true := by
  obtain ⟨running, uncut, w₁, w₂, asked, turned, -⟩ := goes
  constructor
  · rintro ⟨w₃, -, -, w₁', asked', takes⟩
    obtain rfl : w₁ = w₁' := congrArg Prod.snd (asked.symm.trans asked')
    cases taken with
    | true => rfl
    | false => cases turned.symm.trans takes
  · rintro rfl
    exact ⟨w₂, running, uncut, w₁, asked, turned⟩

section

variable {board : Board} {stakes : Stakes} {dice : δ}

/-- There is at most one double in a turn. -/
theorem Course.length_le (course : a.Course (.start board stakes dice) w₀ doubles t w) :
    doubles.length ≤ t.ply := by
  induction course with
  | start => exact Nat.le_refl 0
  | @next doubles t w taken t' w' _ goes ih =>
    rw [goes.ply_eq]
    cases taken with
    | false => exact Nat.le_succ_of_le ih
    | true => simpa using ih

/-- **Trials that are cut short in time do not saturate.** -/
theorem unsaturated_of_truncateAt {limit : Nat} (cutAt : a.settings.truncateAt = some limit)
    (fits : stakes.cube * 2 ^ limit ≤ Stakes.largestCube) :
    a.Unsaturated (.start board stakes dice) w₀ := by
  intro doubles t w course w' takes
  have inTime : doubles.length + 1 ≤ limit :=
    Nat.succ_le_of_lt (course.length_le.trans_lt (ply_lt_of_uncut takes.uncut cutAt))
  have bounded : stakes.cube ≤ Stakes.largestCube :=
    (Nat.le_mul_of_pos_right _ (Nat.two_pow_pos limit)).trans fits
  calc 2 * t.stakes.cube
      ≤ 2 * (stakes.cube * 2 ^ doubles.length) := by
        rw [course.atHead.cube_eq bounded]
        exact Nat.mul_le_mul_left 2 (Nat.min_le_left ..)
    _ = stakes.cube * 2 ^ (doubles.length + 1) := by rw [Nat.mul_left_comm, Nat.pow_succ']
    _ ≤ stakes.cube * 2 ^ limit := Nat.mul_le_mul_left _ (Nat.pow_le_pow_right Nat.two_pos inTime)
    _ ≤ Stakes.largestCube := fits

end

namespace IgnoresCube

variable {k c : Nat} (ignores : a.IgnoresCube) (fits : a.Unsaturated t₀ w₀)
  (fits' : a.Unsaturated t₀' w₀) (h : t.Scales k c) (course : a.Course t₀ w₀ doubles t w)
  (course' : a.Course t₀' w₀ doubles' (t.atCubes k c) w)
include ignores fits fits' h course course'

/-- **Where no double saturates, every turn keeps the ratio of the cubes.** -/
theorem turn_of_unsaturated :
    Abreast (Turn.Scaled c) ((a.turn t).run.run w) ((a.turn (t.atCubes k c)).run.run w) :=
  ignores.turn h fun w' takes =>
    ⟨fits _ _ _ course w' takes, fits' _ _ _ course' w' ((ignores.takes_iff h).2 takes)⟩

/-- **Where a trial goes on, so does the one at other cubes**, and a double is taken in both or in
neither. -/
theorem goesOn (goes : a.GoesOn t w taken t' w') :
    ∃ k', a.GoesOn (t.atCubes k c) w taken (t'.atCubes k' c) w' ∧ t'.Scales k' c := by
  have turn := ignores.turn_of_unsaturated fits fits' h course course'
  rw [show (a.turn t).run.run w = _ from goes.yields_turn] at turn
  generalize turned : (a.turn (t.atCubes k c)).run.run w = ran at turn
  cases turn with
  | ok related =>
    cases related with
    | @next _ k' h' =>
      obtain ⟨taken', goes'⟩ := yields_turn_next_iff.1 turned
      -- the cube actions are the same run, so a double is taken in both turns or in neither
      have same : taken' = true ↔ taken = true := by
        rw [← goes.takes_iff, ← goes'.takes_iff]
        exact exists_congr fun _ => ignores.takes_iff h
      rw [Bool.eq_iff_iff.2 same] at goes'
      exact ⟨k', goes', h'⟩

/-- **Trials that scale come to the same**, from every two heads. -/
theorem playOn (horizon : Nat) :
    Abreast Eq ((a.playOn horizon t).run.run w) ((a.playOn horizon (t.atCubes k c)).run.run w) := by
  induction horizon generalizing t w k doubles doubles' with
  | zero => exact .error TrialError.unfinished w
  | succ horizon ih =>
    refine (ignores.turn_of_unsaturated fits fits' h course course').bind ?_
    intro x x' w' turned turned' related
    rcases related with v | _ | h'
    · exact .ok rfl w'
    · exact .ok rfl w'
    · obtain ⟨taken, goes⟩ := yields_turn_next_iff.1 turned
      obtain ⟨taken', goes'⟩ := yields_turn_next_iff.1 turned'
      exact ih h' (course.next goes) (course'.next goes')

end IgnoresCube

end Arena

section

variable {a : Arena (StateM σ) δ Rat Board Move} {stakes : Stakes} {cube : Nat} {board : Board} {dice : δ}
  {w₀ : σ}

/-- **Every head has its counterpart** in a trial from another cube. -/
theorem Arena.IgnoresCube.exists_course (ignores : a.IgnoresCube) (money : stakes.isMoney = true)
    (pos : 0 < stakes.cube) (pos' : 0 < cube) (fits : a.Unsaturated (.start board stakes dice) w₀)
    (fits' : a.Unsaturated (.start board (stakes.atCube cube) dice) w₀) {doubles : List Stakes}
    {t : Trial δ Rat Board} {w : σ} (course : a.Course (.start board stakes dice) w₀ doubles t w) :
    ∃ doubles' k,
      a.Course (.start board (stakes.atCube cube) dice) w₀ doubles' (t.atCubes k cube) w ∧
      t.Scales k cube ∧ Stakes.DoublesScale stakes.cube cube doubles doubles' := by
  induction course with
  | start => exact ⟨[], cube, .start, ⟨money, pos, pos', Nat.mul_comm ..⟩, .nil⟩
  | @next doubles t w taken t' w' course goes ih =>
    obtain ⟨doubles', k, course', h, alike⟩ := ih
    obtain ⟨k', goes', h'⟩ := ignores.goesOn fits fits' h course course' goes
    refine ⟨_, k', course'.next goes', h', ?_⟩
    cases taken with
    | false => exact alike
    | true =>
      have ratio := h.ratio
      rw [course.atHead.startCube_eq] at ratio
      exact List.rel_append alike (.cons ⟨k, rfl, ratio⟩ .nil)

/-- **Money trials do not depend on the cube of the start.**  Let the evaluator not look at the height of
the cube, and let no double saturate.  Then a money trial comes to the same from another cube and leaves
the world in the same state, and at every head of the one the other stands at the same board with the same
dice and the same luck, with the cube in the ratio of the first cubes; there both go on with a double or
without one, or both end in the same way. -/
theorem money_ignores_cube (ignores : a.IgnoresCube) (money : stakes.isMoney = true)
    (pos : 0 < stakes.cube) (pos' : 0 < cube) (fits : a.Unsaturated (.start board stakes dice) w₀)
    (fits' : a.Unsaturated (.start board (stakes.atCube cube) dice) w₀) :
    (∀ horizon, (a.play horizon board (stakes.atCube cube) dice).run.run w₀ =
      (a.play horizon board stakes dice).run.run w₀) ∧
    ∀ doubles t w, a.Course (.start board stakes dice) w₀ doubles t w →
      ∃ doubles' k,
        a.Course (.start board (stakes.atCube cube) dice) w₀ doubles' (t.atCubes k cube) w ∧
        t.stakes.cube * cube = k * stakes.cube ∧
        Stakes.DoublesScale stakes.cube cube doubles doubles' ∧
        (∀ w', a.Takes t w w' ↔ a.Takes (t.atCubes k cube) w w') ∧
        (∀ taken w', (∃ t', a.GoesOn t w taken t' w') ↔
          ∃ t', a.GoesOn (t.atCubes k cube) w taken t' w') ∧
        ∀ e v w', a.EndsBy t w e v w' ↔ a.EndsBy (t.atCubes k cube) w e v w' := by
  refine ⟨fun horizon => ?_, fun doubles t w course => ?_⟩
  · have scales : (Trial.start board stakes dice : Trial δ Rat Board).Scales cube cube :=
      ⟨money, pos, pos', Nat.mul_comm ..⟩
    exact (ignores.playOn fits fits' scales .start .start horizon).eq_of_eq.symm
  · obtain ⟨doubles', k, course', h, alike⟩ := ignores.exists_course money pos pos' fits fits' course
    have ratio := h.ratio
    rw [course.atHead.startCube_eq] at ratio
    refine ⟨doubles', k, course', ratio, alike, fun _ => (ignores.takes_iff h).symm,
      fun taken w' => ⟨?_, ?_⟩, fun e v w' => ⟨?_, ?_⟩⟩
    · rintro ⟨t', goes⟩
      obtain ⟨k', goes', -⟩ := ignores.goesOn fits fits' h course course' goes
      exact ⟨_, goes'⟩
    · rintro ⟨t', goes⟩
      obtain ⟨k', goes', -⟩ := ignores.goesOn fits' fits h.symm course' course goes
      exact ⟨_, goes'⟩
    · exact ignores.endsBy h
    · exact ignores.endsBy h.symm

end

/-! ### A double seen from two cubes -/

/-- The game of `earlyDouble` with the luck taken off, for money.  The evaluator likes a turned cube,
however high it is. -/
def blindDouble : Arena (StateM Unit) Nat Rat Nat Unit where
  game := earlyDouble.game
  evaluator _ s _ :=
    pure ((Equities.ofChances (3 / 5) 0 0 0 0).withCubeful (if s.isCentered then 1 / 2 else 2 / 5))
  met := earlyDouble.met
  settings := { Settings.standard with truncateAt := some 2, varianceReduction := true }
  roll := earlyDouble.roll
  interrupted _ := pure false

theorem goesOn_blindDouble :
    ∃ t', blindDouble.GoesOn (.start 5 (.money .zero) 0) () true t' () ∧ t'.stakes.cube = 2 :=
  ⟨_, ⟨rfl, rfl, (), (), rfl, by decide +kernel, rfl⟩, rfl⟩

/-- From a cube at three the double is taken as well, and the result is the same. -/
theorem blindDouble_from_three :
    (∃ v, Yields (blindDouble.play 3 5 (.money .zero) 0) () (some v) () ∧
      Yields (blindDouble.play 3 5 ((Stakes.money .zero).atCube 3) 0) () (some v) ()) ∧
    ∃ doubles t, blindDouble.Course (.start 5 ((Stakes.money .zero).atCube 3) 0) () doubles t () ∧
      t.stakes.cube = 6 := by
  have fits : blindDouble.Unsaturated (.start 5 (.money .zero) 0) () :=
    Arena.unsaturated_of_truncateAt rfl (by decide)
  have fits' : blindDouble.Unsaturated (.start 5 ((Stakes.money .zero).atCube 3) 0) () :=
    Arena.unsaturated_of_truncateAt rfl (by decide)
  obtain ⟨run_eq, heads⟩ :=
    money_ignores_cube (fun _ _ _ _ => rfl) rfl (by decide) (by decide) fits fits'
  refine ⟨?_, ?_⟩
  · let result := (Equities.ofChances (3 / 5 : Rat) 0 0 0 0).withCubeful (8 / 5)
    have played : Yields (blindDouble.play 3 5 (.money .zero) 0) () (some result) () := by
      decide +kernel
    exact ⟨result, played, (run_eq 3).trans played⟩
  · obtain ⟨t', goes, turned⟩ := goesOn_blindDouble
    obtain ⟨doubles', k, course, ratio, -⟩ := heads _ _ _ (.next .start goes)
    rw [turned] at ratio
    exact ⟨doubles', _, course, ((Nat.mul_one k).symm.trans ratio.symm : k = 2 * 3)⟩

end Rollout

end Backgammon
