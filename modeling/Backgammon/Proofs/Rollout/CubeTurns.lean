import Backgammon.Proofs.Rollout.Turns
import Mathlib.Algebra.Ring.Parity
import Mathlib.Data.List.Chain

/-!
# Proofs/Rollout/CubeTurns — what holds at every head of a trial

A turn changes three things: the cube if a double is taken, the dice, and the player on roll.  What
follows for the heads of a trial holds only together (`Arena.AtHead`): who may double depends on who
owns the cube, the owner on the last double, and the player on roll on the number of turns.

* `Stakes.ProperDoubles` — doubles by players who may double, turn about.
* `AtHead.start`, `AtHead.next` — the invariant holds at the start, and a turn preserves it.
* `AtHead.proper_offer` — a double at a head is proper too, whether it is taken or passed.
* `GoesOn.stakes_eq_of_resting` — where the cube rests, a turn leaves it alone.
* `Course.exists_last` — a trial that is cut short at a ply has a last head.
* `trial_invariants` — all of this, for every arena and every start.
-/

namespace Backgammon

namespace Stakes

/-- **Doubles in their order are proper**: each is made by a player who may double, which in a match is
one whom the cube does not carry home, and the players double turn about. -/
structure ProperDoubles (doubles : List Stakes) : Prop where
  available : ∀ d ∈ doubles, d.cubeAvailable = true
  cube_lt_away : ∀ d ∈ doubles, d.isMoney = false → (d.cube : Int) < d.away d.onRoll
  alternate : doubles.IsChain fun d e => e.onRoll = d.onRoll.opponent

theorem mayTurn_of_cubeAvailable {s : Stakes} (h : s.cubeAvailable = true) : s.mayTurn = true := by
  rw [cubeAvailable, Bool.and_eq_true] at h
  exact h.1

theorem cube_lt_away_of_cubeAvailable {s : Stakes} (h : s.cubeAvailable = true)
    (inMatch : s.isMoney = false) : (s.cube : Int) < s.away s.onRoll := by
  simp only [cubeAvailable, inMatch, Bool.false_or, Bool.and_eq_true, decide_eq_true_eq] at h
  exact h.2.1.2

namespace ProperDoubles

theorem nil : ProperDoubles [] where
  available := nofun
  cube_lt_away := nofun
  alternate := .nil

/-- Another double, by a player who may double and did not make the last one. -/
theorem concat {doubles : List Stakes} {s : Stakes} (h : ProperDoubles doubles)
    (available : s.cubeAvailable = true)
    (turnAbout : ∀ d ∈ doubles.getLast?, s.onRoll = d.onRoll.opponent) :
    ProperDoubles (doubles ++ [s]) where
  available := List.forall_mem_append.2 ⟨h.available, by simpa using available⟩
  cube_lt_away := List.forall_mem_append.2
    ⟨h.cube_lt_away, by simpa using cube_lt_away_of_cubeAvailable available⟩
  alternate := List.isChain_append.2 ⟨h.alternate, .singleton _, by simpa using turnAbout⟩

end ProperDoubles

end Stakes

namespace Rollout

variable {m : Type → Type} {σ δ α Board Move : Type}

namespace Arena

section

variable (a : Arena m δ α Board Move)

/-- **The cube rests** at a ply: it is not in play, or not yet. -/
def Resting (ply : Nat) : Prop :=
  a.settings.cubeful = false ∨
    ply = 0 ∧ (a.settings.cubeAtStart = false ∨ a.settings.initialPosition = true)

variable {a} {s : Stakes} {ply : Nat}

theorem cubeAvailable_of_mayDouble (h : a.mayDouble s ply = true) : s.cubeAvailable = true := by
  rw [mayDouble, Bool.and_eq_true] at h
  exact h.2

theorem not_resting_of_mayDouble (h : a.mayDouble s ply = true) : ¬ a.Resting ply := by
  simp only [mayDouble, Bool.and_eq_true, Bool.or_eq_true, decide_eq_true_eq, Bool.not_eq_true'] at h
  obtain ⟨⟨cubeful, begun | ⟨early, settled⟩⟩, -⟩ := h
  · rintro (out | ⟨rfl, -⟩)
    · exact absurd cubeful (by simp [out])
    · exact absurd begun (Nat.lt_irrefl 0)
  · rintro (out | ⟨-, late | opening⟩)
    · exact absurd cubeful (by simp [out])
    · exact absurd early (by simp [late])
    · exact absurd settled (by simp [opening])

theorem ply_lt_of_uncut {t : Trial δ α Board} {limit : Nat} (uncut : a.truncates t = false)
    (cutAt : a.settings.truncateAt = some limit) : t.ply < limit := by
  simp only [truncates, cutAt, Option.any_some, Bool.or_eq_false_iff, decide_eq_false_iff_not] at uncut
  omega

end

variable [Scalar α] (a : Arena (StateM σ) δ α Board Move)

/-- Counts the rolls drawn: every roll raises it by one. -/
def CountsRolls (drawn : δ → Nat) : Prop :=
  ∀ d w roll d' w', Yields (a.roll d) w (roll, d') w' → drawn d' = drawn d + 1

/-- **What holds at every head** of a trial from given stakes and dice, after the given doubles. -/
structure AtHead (stakes : Stakes) (dice : δ) (doubles : List Stakes) (t : Trial δ α Board) :
    Prop where
  rolls : ∀ drawn, a.CountsRolls drawn → drawn t.dice = drawn dice + t.ply
  flipped_iff : t.flipped = true ↔ Odd t.ply
  onRoll_iff : t.stakes.onRoll = stakes.onRoll ↔ Even t.ply
  /-- Score, match length and the rules in force are those of the start. -/
  rules : t.stakes =
    { stakes with cube := t.stakes.cube, owner := t.stakes.owner, onRoll := t.stakes.onRoll }
  cube_eq : stakes.cube ≤ Stakes.largestCube →
    t.stakes.cube = min (stakes.cube * 2 ^ doubles.length) Stakes.largestCube
  /-- The opponent of the last player to double owns the cube. -/
  owner_eq : t.stakes.owner =
    (doubles.getLast?.map fun d => d.onRoll.opponent).or stakes.owner
  proper : Stakes.ProperDoubles doubles
  idle : a.settings.cubeful = false → doubles = []
  startCube_eq : t.startCube = stakes.cube
  luck_eq : a.settings.varianceReduction = false → t.luck = .zero

variable {a} {t t' : Trial δ α Board} {w w' : σ} {taken : Bool} {act : CubeTurn α}

/-! ## Who doubles, and when -/

theorem mayDouble_of_cubeTurn (h : Yields (a.cubeTurn t) w act w') (turned : act ≠ .unturned) :
    a.mayDouble t.stakes t.ply = true := by
  by_contra no
  rw [cubeTurn, if_neg no] at h
  exact turned (Yields.pure_iff.1 h).1.symm

theorem GoesOn.cubeTurn_of_taken (h : a.GoesOn t w true t' w') :
    ∃ w₁ w₂, Yields (a.cubeTurn t) w₁ .taken w₂ := by
  obtain ⟨-, -, w₁, w₂, -, turned, -⟩ := h
  exact ⟨w₁, w₂, turned⟩

theorem GoesOn.taken_eq_false_of_resting (h : a.GoesOn t w taken t' w') (resting : a.Resting t.ply) :
    taken = false := by
  cases taken with
  | false => rfl
  | true =>
    obtain ⟨_, _, turned⟩ := h.cubeTurn_of_taken
    exact absurd resting (not_resting_of_mayDouble (mayDouble_of_cubeTurn turned nofun))

/-- **Where the cube rests, a turn leaves it alone.** -/
theorem GoesOn.stakes_eq_of_resting (h : a.GoesOn t w taken t' w') (resting : a.Resting t.ply) :
    t'.stakes = t.stakes.swapTurn := by
  obtain rfl := h.taken_eq_false_of_resting resting
  obtain ⟨_, _, _, rfl, -, -⟩ := h.exists_eq
  rfl

theorem not_passed_of_resting {v : Equities α} (resting : a.Resting t.ply) :
    ¬ a.EndsBy t w .passed v w' := by
  intro h
  cases h with
  | passed _ _ _ offer =>
    exact not_resting_of_mayDouble (mayDouble_of_cubeTurn offer nofun) resting

/-! ## The invariant -/

namespace AtHead

variable {stakes : Stakes} {dice : δ} {doubles : List Stakes} {board : Board}

theorem start : a.AtHead stakes dice [] (.start board stakes dice) where
  rolls _ _ := rfl
  flipped_iff := by simp [Trial.start]
  onRoll_iff := by simp [Trial.start]
  rules := rfl
  cube_eq bounded := by simpa [Trial.start] using (Nat.min_eq_left bounded).symm
  owner_eq := rfl
  proper := .nil
  idle _ := rfl
  startCube_eq := rfl
  luck_eq _ := rfl

variable (h : a.AtHead stakes dice doubles t)
include h

/-- **A double at a head is proper** as well, whether it is taken or passed. -/
theorem proper_offer (offer : Yields (a.cubeTurn t) w act w') (turned : act ≠ .unturned) :
    Stakes.ProperDoubles (doubles ++ [t.stakes]) := by
  have available := cubeAvailable_of_mayDouble (mayDouble_of_cubeTurn offer turned)
  refine h.proper.concat available fun d last => ?_
  -- the cube is not in the middle after a double, so the player on roll owns it
  have owned : t.stakes.owner = some d.onRoll.opponent := by
    rw [h.owner_eq, Option.mem_def.1 last]
    rfl
  have mine := Stakes.mayTurn_of_cubeAvailable available
  rw [Stakes.mayTurn, owned] at mine
  exact (beq_iff_eq.1 mine).symm

/-- The player on roll changes with every turn. -/
theorem opponent_onRoll_iff : t.stakes.onRoll.opponent = stakes.onRoll ↔ Even (t.ply + 1) := by
  rw [Player.opponent_eq_iff, Nat.even_add_one, ← h.onRoll_iff]

/-- **A turn preserves what holds at a head.** -/
theorem next (turn : a.GoesOn t w taken t' w') :
    a.AtHead stakes dice (if taken then doubles ++ [t.stakes] else doubles) t' := by
  have idle (out : a.settings.cubeful = false) : taken = false :=
    turn.taken_eq_false_of_resting (.inl out)
  have offered (h' : taken = true) : Stakes.ProperDoubles (doubles ++ [t.stakes]) := by
    subst h'
    obtain ⟨_, _, offer⟩ := turn.cubeTurn_of_taken
    exact h.proper_offer offer nofun
  obtain ⟨board, luck, dice', rfl, ⟨_, _, _, rolled⟩, unnoted⟩ := turn.exists_eq
  have rolls (drawn : δ → Nat) (counts : a.CountsRolls drawn) :
      drawn dice' = drawn dice + (t.ply + 1) := by
    rw [counts _ _ _ _ _ rolled, h.rolls drawn counts, Nat.add_assoc]
  have flipped_iff : (!t.flipped) = true ↔ Odd (t.ply + 1) := by
    rw [Nat.odd_add_one, ← h.flipped_iff, Bool.not_eq_true', Bool.not_eq_true]
  have luck_eq (plain : a.settings.varianceReduction = false) : luck = .zero :=
    (unnoted plain).trans (h.luck_eq plain)
  cases taken with
  | false =>
    exact { h with
      rolls, flipped_iff, luck_eq
      onRoll_iff := h.opponent_onRoll_iff
      rules := congrArg Stakes.swapTurn h.rules }
  | true =>
    refine { h with
      rolls, flipped_iff, luck_eq
      onRoll_iff := h.opponent_onRoll_iff
      rules := congrArg (fun s => s.doubled.swapTurn) h.rules
      cube_eq := fun bounded => ?_
      owner_eq := ?_
      proper := offered rfl
      idle := fun out => nomatch idle out }
    · change min (2 * t.stakes.cube) Stakes.largestCube =
        min (stakes.cube * 2 ^ (doubles ++ [t.stakes]).length) Stakes.largestCube
      rw [List.length_append, List.length_singleton, Nat.pow_succ, ← Nat.mul_assoc,
        h.cube_eq bounded]
      omega
    · simp [Stakes.turned, Stakes.swapTurn, Stakes.doubled]

end AtHead

variable {board : Board} {stakes : Stakes} {dice : δ} {w₀ : σ} {doubles : List Stakes}

theorem Course.atHead (h : a.Course (.start board stakes dice) w₀ doubles t w) :
    a.AtHead stakes dice doubles t := by
  induction h with
  | start => exact .start
  | next _ turn ih => exact ih.next turn

/-! ## Trials that are cut short -/

variable {limit : Nat}

theorem GoesOn.ply_lt (h : a.GoesOn t w taken t' w') (cutAt : a.settings.truncateAt = some limit) :
    t.ply < limit := ply_lt_of_uncut h.uncut cutAt

/-- No head comes after the ply at which trials are cut short. -/
theorem Course.ply_le (h : a.Course (.start board stakes dice) w₀ doubles t w)
    (cutAt : a.settings.truncateAt = some limit) : t.ply ≤ limit := by
  cases h with
  | start => exact Nat.zero_le limit
  | next before turn =>
    rw [turn.ply_eq]
    exact turn.ply_lt cutAt

/-- **A trial that is cut short has a last head**: from every head on it comes to one where no turn
leads on. -/
theorem Course.exists_last (h : a.Course (.start board stakes dice) w₀ doubles t w)
    (cutAt : a.settings.truncateAt = some limit) :
    ∃ doubles t w, a.Course (.start board stakes dice) w₀ doubles t w ∧
      ∀ t' w', ¬ Yields (a.turn t) w (.next t') w' := by
  induction left : limit - t.ply generalizing doubles t w with
  | zero =>
    refine ⟨doubles, t, w, h, fun t' w' turned => ?_⟩
    obtain ⟨taken, goes⟩ := yields_turn_next_iff.1 turned
    have := goes.ply_lt cutAt
    omega
  | succ left' ih =>
    by_cases last : ∀ t' w', ¬ Yields (a.turn t) w (.next t') w'
    · exact ⟨doubles, t, w, h, last⟩
    · obtain ⟨t', w', turned⟩ : ∃ t' w', Yields (a.turn t) w (.next t') w' := by
        simpa only [not_forall, not_not] using last
      obtain ⟨taken, goes⟩ := yields_turn_next_iff.1 turned
      refine ih (h.next goes) ?_
      rw [goes.ply_eq]
      omega

/-- Where no turn leads on, one turn is the whole trial. -/
theorem run_playOn_of_last (last : ∀ t' w', ¬ Yields (a.turn t) w (.next t') w') (horizon : Nat) :
    (a.playOn (horizon + 1) t).run.run w = (a.playOn 1 t).run.run w := by
  rw [playOn, playOn]
  rcases turned : (a.turn t).run.run w with ⟨e | x, w'⟩
  · rw [ExceptT.run_bind, ExceptT.run_bind, StateT.run_bind, StateT.run_bind, turned]
    rfl
  · replace turned : Yields (a.turn t) w x w' := turned
    rw [turned.run_bind, turned.run_bind]
    rcases x with v | _ | t'
    · rfl
    · rfl
    · exact absurd turned (last t' w')

end Arena

/-! ## Every trial -/

section

variable [Scalar α]

/-- **Cube and turns in a trial.**  At every head the rest of the trial is played on, and the state is what
the turns and doubles so far make of the start; a double made there is proper whether it is taken or
passed, and where the cube rests a turn neither moves it nor ends with it.  Trials that are cut short at a
ply have a last head, at most so many rolls after the start, and end there. -/
theorem trial_invariants (a : Arena (StateM σ) δ α Board Move) (board : Board) (stakes : Stakes)
    (dice : δ) (w₀ : σ) :
    (∀ doubles t w, a.Course (.start board stakes dice) w₀ doubles t w →
      (∀ horizon, (a.play (horizon + t.ply) board stakes dice).run.run w₀ =
        (a.playOn horizon t).run.run w) ∧
      a.AtHead stakes dice doubles t ∧
      (∀ w₁ act w₂, Yields (a.cubeTurn t) w₁ act w₂ → act ≠ .unturned →
        Stakes.ProperDoubles (doubles ++ [t.stakes])) ∧
      (a.Resting t.ply →
        (∀ w₁ t' w₂, Yields (a.turn t) w₁ (.next t') w₂ → t'.stakes = t.stakes.swapTurn) ∧
        ∀ w₁ v w₂, ¬ a.EndsBy t w₁ .passed v w₂)) ∧
    ∀ limit, a.settings.truncateAt = some limit →
      (∀ doubles t w, a.Course (.start board stakes dice) w₀ doubles t w → t.ply ≤ limit) ∧
      ∃ doubles t w, a.Course (.start board stakes dice) w₀ doubles t w ∧
        (∀ t' w', ¬ Yields (a.turn t) w (.next t') w') ∧
        ∀ horizon, limit < horizon →
          (a.play horizon board stakes dice).run.run w₀ = (a.playOn 1 t).run.run w := by
  refine ⟨fun doubles t w course => ?_, fun limit cutAt => ?_⟩
  · refine ⟨course.run_play, course.atHead, fun _ _ _ => course.atHead.proper_offer,
      fun resting => ⟨?_, ?_⟩⟩
    · intro _ t' _ turned
      obtain ⟨_, goes⟩ := Arena.yields_turn_next_iff.1 turned
      exact goes.stakes_eq_of_resting resting
    · exact fun _ _ _ => Arena.not_passed_of_resting resting
  · refine ⟨fun _ _ _ course => course.ply_le cutAt, ?_⟩
    obtain ⟨doubles, t, w, course, last⟩ := Arena.Course.start.exists_last cutAt
    refine ⟨doubles, t, w, course, last, fun horizon inTime => ?_⟩
    have := course.ply_le cutAt
    obtain ⟨left, rfl⟩ : ∃ left, horizon = left + 1 + t.ply := ⟨horizon - 1 - t.ply, by omega⟩
    rw [course.run_play, Arena.run_playOn_of_last last]

end

/-! ### An early double -/

/-- A game in which a roll takes one off the board, and whoever takes the last off wins a gammon.  The
evaluator likes a turned cube, so that an early double is right and taken. -/
def earlyDouble : Arena (StateM Unit) Nat Rat Nat Unit where
  game := {
    legalMoves := fun _ _ => [()]
    play := fun left _ => left - 1
    pass := id
    outcome? := fun left => if left = 0 then some ⟨.opponent, .gammon⟩ else none }
  evaluator _ s _ :=
    pure ((Equities.ofChances (3 / 5) 0 0 0 0).withCubeful (if s.cube = 1 then 101 / 200 else 103 / 200))
  met := ⟨fun away opponentAway _ => 1 / 2 + ((opponentAway - away : Int) : Rat) / 40⟩
  settings := { Settings.standard with truncateAt := some 2 }
  roll drawn := pure (⟨1, 2⟩, drawn + 1)
  interrupted _ := pure false

/-- A match to nine points at the start. -/
def toNine : Stakes := .matchPlay 9 (.splat 0) .zero

theorem goesOn_earlyDouble : earlyDouble.GoesOn (.start 5 toNine 0) () true
    ⟨4, toNine.doubled.swapTurn, true, 1, .zero, 1, 1⟩ () where
  running := rfl
  uncut := rfl
  plays := ⟨(), (), rfl, by decide +kernel, rfl⟩

/-- The dice of `earlyDouble` are the number of rolls drawn from them. -/
theorem countsRolls_earlyDouble : earlyDouble.CountsRolls id := by
  intro d w roll d' w' rolled
  exact (Prod.mk.inj (Yields.pure_iff.1 rolled).1).2.symm

theorem earlyDouble_invariants :
    (∃ t, earlyDouble.Course (.start 5 toNine 0) () [toNine] t () ∧
      earlyDouble.AtHead toNine 0 [toNine] t ∧ t.dice = t.ply ∧ t.ply ≤ 2) ∧
    Stakes.ProperDoubles [toNine] ∧
    ∃ doubles t, earlyDouble.Course (.start 5 toNine 0) () doubles t () ∧
      ∀ horizon, 2 < horizon →
        (earlyDouble.play horizon 5 toNine 0).run.run () = (earlyDouble.playOn 1 t).run.run () := by
  obtain ⟨heads, cutShort⟩ := trial_invariants earlyDouble 5 toNine 0 ()
  obtain ⟨ply_le, doubles, last, ⟨⟩, toLast, -, run_eq⟩ := cutShort 2 rfl
  have course := Arena.Course.next .start goesOn_earlyDouble
  have atHead := (heads _ _ _ course).2.1
  have drawn := (atHead.rolls id countsRolls_earlyDouble).trans (Nat.zero_add _)
  have proper := (heads _ _ _ .start).2.2.1 () .taken () (by decide +kernel) nofun
  exact ⟨⟨_, course, atHead, drawn, ply_le _ _ _ course⟩, proper, doubles, last, toLast, run_eq⟩

end Rollout

end Backgammon
