import Backgammon.Proofs.Analysis.CubeMistakes
import Backgammon.Proofs.Analysis.Recordings
import Mathlib.Algebra.BigOperators.Group.List.Basic
import Mathlib.Algebra.Order.BigOperators.Group.List
import Mathlib.Algebra.Order.Ring.Nat

/-!
# Proofs/Analysis/Counters — the counters of the statistics fit together

    doubles + takes + passes ──≤──┐
                                  ├──▸ close decisions ──≤──▸ decisions
    cube errors ───────────≤──────┘

A cube error is counted only with a decision that is close: doubles, takes and passes always are, and not
doubling is an error only where the verdict asks for a double, which then loses nothing.

* `isClose_of_mistakeFor` — a mistake is a close decision.
* `Statistics.Consistent` — what fits together; `consistent_empty`, `consistent_single`,
  `Consistent.addResult`, `Consistent.merge` — it does so from the start on.
* `counters_consistent` — in all statistics, so that no error is left out of the rates.
-/

namespace Backgammon

theorem PerPlayer.get_update {β : Type} (x : PerPlayer β) (p q : Player) (f : β → β) :
    (x.update p f).get q = if p = q then f (x.get q) else x.get q := by
  cases p <;> cases q <;> rfl

namespace Analysis

/-! ## Close decisions -/

/-- **A mistake is a close decision.**  A missed double is one that the verdict asks for, so that turning
the cube would have lost nothing. -/
theorem isClose_of_mistakeFor {ctx : Context Rat} {c : CubeLines Rat} {s : Stakes}
    {v : CubeVerdict Rat} (ruling : Ruling ctx c s v) (valid : ctx.options.validate = .ok ())
    {action : CubeAction} {e : CubeError Rat} (mistake : ctx.mistakeFor c v action = some e) :
    (action != .noDouble || ctx.isCloseFor c v) = true := by
  cases action with
  | double | take | pass => rfl
  | noDouble =>
    obtain ⟨costly, cost⟩ := cost_of_mistakeFor mistake
    rw [cost, regret] at costly
    have optimal := ruling.optimal_eq
    have lossless : v.optimal = c.response := by
      split at optimal
      · exact optimal
      · rw [optimal, sub_self] at costly
        exact absurd costly (not_lt.2 (Options.equityEpsilon_nonneg valid))
    have close : v.optimal - c.response < ctx.options.closeCube := by
      rw [lossless, sub_self]
      exact Options.closeCube_pos valid
    exact decide_eq_true close

/-- A verdict that counts is one that the classifier gives. -/
theorem ruling_of_countedVerdict? {ctx : Context Rat} {s : Stakes} {c : CubeLines Rat}
    {action : CubeAction} {v : CubeVerdict Rat} (counted : ctx.countedVerdict? s c action = some v) :
    Ruling ctx c s v := by
  rw [Context.countedVerdict?] at counted
  split at counted
  · have classified := (Option.filter_eq_some_iff.1 counted).1
    rw [Context.classify] at classified
    split at classified
    · obtain rfl := Option.some.inj classified
      exact ruling_verdict ctx s c.comparable_rat
    · cases classified
  · cases counted

/-- The loss of a play is a magnitude. -/
theorem Context.playLoss?_nonneg {ctx : Context Rat} {loss : Option Rat} {cost : Rat}
    (analysed : ctx.playLoss? loss = some cost) : 0 ≤ cost := by
  rw [playLoss?] at analysed
  split at analysed
  · obtain ⟨x, -, rfl⟩ := Option.map_eq_some_iff.1 analysed
    rw [Scalar.abs_rat]
    exact abs_nonneg x
  · exact nomatch analysed

/-! ## Counts and costs -/

namespace SkillCounts

variable (c d : SkillCounts)

/-- The number of plays in all classes. -/
def total : Nat := (Skill.all.map c.get).sum

theorem total_add : (c + d).total = c.total + d.total := by
  rw [total, total, total, ← List.sum_map_add]
  exact congrArg List.sum (List.map_congr_left fun s _ => get_add c d s)

theorem total_count (s : Skill) : (c.count s).total = c.total + 1 := by
  have once : (Skill.all.map fun t => if s = t then 1 else 0).sum = 1 := by cases s <;> rfl
  rw [total, total, ← once, ← List.sum_map_add]
  exact congrArg List.sum (List.map_congr_left fun t _ => get_count c s t)

end SkillCounts

namespace ErrorTotal

/-- **What errors cost fits their number**: nothing less than nothing, and nothing at all if there are
none. -/
structure Sound (e : ErrorTotal Rat) : Prop where
  nonneg : 0 ≤ e.cost.normalized
  eq_zero : e.count = 0 → e.cost = 0

theorem sound_zero : Sound 0 := ⟨le_refl 0, fun _ => rfl⟩

theorem sound_single {cost : Amount Rat} (nonneg : 0 ≤ cost.normalized) : Sound ⟨1, cost⟩ :=
  ⟨nonneg, fun none => absurd none Nat.one_ne_zero⟩

theorem Sound.add {d e : ErrorTotal Rat} (hd : d.Sound) (he : e.Sound) : (d + e).Sound := by
  refine ⟨add_nonneg hd.nonneg he.nonneg, fun none => ?_⟩
  obtain ⟨none, none'⟩ := Nat.add_eq_zero_iff.1 none
  change d.cost + e.cost = 0
  rw [hd.eq_zero none, he.eq_zero none', add_zero]

end ErrorTotal

namespace CubeErrors

variable (c d : CubeErrors Rat)

theorem number_eq_sum : c.number = (CubeErrorKind.all.map fun k => (c.get k).count).sum := by
  rw [number, List.sum_eq_foldl, List.foldl_map]

theorem number_add : (c + d).number = c.number + d.number := by
  rw [number_eq_sum, number_eq_sum, number_eq_sum, ← List.sum_map_add]
  exact congrArg List.sum
    (List.map_congr_left fun k _ => congrArg ErrorTotal.count (get_add c d k))

/-- **What is summed over the kinds grows by what one more error adds.** -/
theorem sum_map_count {M : Type} [AddCommMonoid M] (f : ErrorTotal Rat → M)
    (add : ∀ a b, f (a + b) = f a + f b) (kind : CubeErrorKind) (cost : Amount Rat) :
    (CubeErrorKind.all.map fun k => f ((c.count kind cost).get k)).sum =
      (CubeErrorKind.all.map fun k => f (c.get k)).sum + f ⟨1, cost⟩ := by
  have once : (CubeErrorKind.all.map fun k => if k = kind then f ⟨1, cost⟩ else 0).sum =
      f ⟨1, cost⟩ := by
    cases kind <;> simp [CubeErrorKind.all]
  rw [← once, ← List.sum_map_add]
  refine congrArg List.sum (List.map_congr_left fun k _ => ?_)
  rw [get_count]
  split
  · exact add _ _
  · exact (add_zero _).symm

theorem number_count (kind : CubeErrorKind) (cost : Amount Rat) :
    (c.count kind cost).number = c.number + 1 := by
  rw [number_eq_sum, number_eq_sum]
  exact sum_map_count c ErrorTotal.count (fun _ _ => rfl) kind cost

theorem mem_all (k : CubeErrorKind) : k ∈ CubeErrorKind.all := by cases k <;> decide

theorem count_le_number (k : CubeErrorKind) : (c.get k).count ≤ c.number := by
  rw [number_eq_sum]
  exact List.le_sum_of_mem (List.mem_map_of_mem (f := fun k => (c.get k).count) (mem_all k))

theorem sound_zero (k : CubeErrorKind) : (zero.get k).Sound := by
  cases k <;> exact ErrorTotal.sound_zero

/-- One more error keeps the errors of every kind sound. -/
theorem sound_count {c : CubeErrors Rat} (sound : ∀ k, (c.get k).Sound) {cost : Amount Rat}
    (nonneg : 0 ≤ cost.normalized) (kind k : CubeErrorKind) : ((c.count kind cost).get k).Sound := by
  rw [get_count]
  split
  · exact (sound k).add (ErrorTotal.sound_single nonneg)
  · exact sound k

/-- Without errors of any kind there is no cost. -/
theorem total_eq_zero (costless : ∀ k, (c.get k).cost = 0) : c.total = 0 := by
  simp only [total, costless, CubeErrorKind.all, List.map_cons, List.map_nil, List.foldl_cons,
    List.foldl_nil, add_zero]
  rfl

end CubeErrors

/-- There is no quotient only by zero. -/
theorem quotient?_eq_none_iff {a b : Rat} : Scalar.quotient? a b = none ↔ b = 0 := by
  rw [Scalar.quotient?]
  split
  next zero => exact ⟨fun _ => by simpa using zero, fun _ => rfl⟩
  next nonzero => exact ⟨nofun, fun zero => absurd zero (by simpa using nonzero)⟩

/-! ## Consistent counters -/

namespace Statistics

/-- **The counters of a player fit together.** -/
structure Consistent (t : Statistics Rat) (p : Player) : Prop where
  moves_eq : (t.movesBySkill.get p).total = t.totalMoves.get p
  unforced_le : t.unforcedMoves.get p ≤ t.totalMoves.get p
  actions_le : t.doubles.get p + t.takes.get p + t.passes.get p ≤ t.closeCube.get p
  close_le : t.closeCube.get p ≤ t.totalCube.get p
  errors_le : t.cubeErrorCount p ≤ t.closeCube.get p
  cube_sound : ∀ k, ((t.cubeErrors.get p).get k).Sound
  checker_sound : ErrorTotal.Sound ⟨t.unforcedMoves.get p, t.checkerError.get p⟩
  actual_games_eq : (t.actualResult.get p).games = t.games
  adjusted_games_eq : (t.luckAdjustedResult.get p).games = t.games

theorem consistent_empty (p : Player) : Consistent empty p where
  moves_eq := by cases p <;> rfl
  unforced_le := by cases p <;> exact Nat.le_refl 0
  actions_le := by cases p <;> exact Nat.le_refl 0
  close_le := by cases p <;> exact Nat.le_refl 0
  errors_le := by cases p <;> exact Nat.le_refl 0
  cube_sound k := by cases p <;> exact CubeErrors.sound_zero k
  checker_sound := by cases p <;> exact ErrorTotal.sound_zero
  actual_games_eq := by cases p <;> rfl
  adjusted_games_eq := by cases p <;> rfl

/-! ### Single records -/

section

variable (t : Statistics Rat) (ctx : Context Rat) (s : Stakes) (p q : Player)

/-- **What a play changes**: the player has one play more, of some class; and one choice more, with a loss,
if it was one. -/
theorem addPlay_cases (loss : Option Rat) (legal : Nat) : ∃ analysed skill,
    t.addPlay ctx s p loss legal = { t with
      movesAnalysed := analysed
      totalMoves := t.totalMoves.update p (· + 1)
      movesBySkill := t.movesBySkill.update p (·.count skill) } ∨
    ∃ cost : Amount Rat, 0 ≤ cost.normalized ∧ t.addPlay ctx s p loss legal = { t with
      movesAnalysed := analysed
      totalMoves := t.totalMoves.update p (· + 1)
      movesBySkill := t.movesBySkill.update p (·.count skill)
      unforcedMoves := t.unforcedMoves.update p (· + 1)
      checkerError := t.checkerError.update p (· + cost) } := by
  rw [addPlay]
  cases analysed : ctx.playLoss? loss with
  | none => exact ⟨_, _, .inl rfl⟩
  | some cost =>
    dsimp only
    split
    · refine ⟨_, _, .inr ⟨ctx.amount s cost, ?_, rfl⟩⟩
      exact Context.playLoss?_nonneg analysed
    · exact ⟨_, _, .inl rfl⟩

/-- **What a cube action changes**: nothing, or the player has one decision more, close or not, which was
one of the four actions; and an error more, if it was one. -/
theorem addCube_cases (valid : ctx.options.validate = .ok ()) (c : CubeLines Rat)
    (action : CubeAction) : t.addCube ctx s p c action = t ∨
    ∃ (close : Bool) (errors : CubeErrors Rat → CubeErrors Rat),
      (action ≠ .noDouble → close = true) ∧
      (errors = id ∨ close = true ∧ ∃ kind cost, 0 ≤ cost.normalized ∧ errors = (·.count kind cost)) ∧
      let one (b : Bool) (x : PerPlayer Nat) := if b then x.update p (· + 1) else x
      t.addCube ctx s p c action = { t with
        cubeAnalysed := true
        totalCube := t.totalCube.update p (· + 1)
        closeCube := one close t.closeCube
        doubles := one (action == .double) t.doubles
        takes := one (action == .take) t.takes
        passes := one (action == .pass) t.passes
        cubeErrors := t.cubeErrors.update p errors } := by
  rw [addCube]
  cases counted : ctx.countedVerdict? s c action with
  | none => exact .inl rfl
  | some v =>
    have ruling : Ruling ctx c s v := ruling_of_countedVerdict? counted
    have active : action ≠ .noDouble → (action != .noDouble || ctx.isCloseFor c v) = true := by
      intro active
      rw [bne_iff_ne.2 active, Bool.true_or]
    right
    dsimp only
    cases mistake : ctx.mistakeFor c v action with
    | none =>
      refine ⟨_, id, active, .inl rfl, ?_⟩
      cases p <;> rfl
    | some e =>
      have close := isClose_of_mistakeFor ruling valid mistake
      have costly := (cost_of_mistakeFor mistake).1
      have nonneg : 0 ≤ e.cost := (Options.equityEpsilon_nonneg valid).trans costly.le
      exact ⟨_, _, active, .inr ⟨close, e.kind, ctx.amount s e.cost, nonneg, rfl⟩, rfl⟩

theorem consistent_addPlay (loss : Option Rat) (legal : Nat) :
    (addPlay empty ctx s p loss legal).Consistent q := by
  have moves (k : Skill) : (((PerPlayer.splat ({} : SkillCounts)).update p (·.count k)).get q).total =
      ((PerPlayer.splat 0).update p (· + 1)).get q := by
    rw [PerPlayer.get_update, PerPlayer.get_update, PerPlayer.get_splat, PerPlayer.get_splat]
    split
    · exact SkillCounts.total_count {} k
    · rfl
  obtain ⟨analysed, skill, eq | ⟨cost, nonneg, eq⟩⟩ := addPlay_cases empty ctx s p loss legal
  · rw [eq]
    refine { consistent_empty q with moves_eq := moves skill, unforced_le := ?_ }
    exact (PerPlayer.get_splat 0 q).le.trans (Nat.zero_le _)
  · rw [eq]
    refine { consistent_empty q with
      moves_eq := moves skill, unforced_le := Nat.le_refl _, checker_sound := ?_ }
    change ErrorTotal.Sound ⟨((PerPlayer.splat 0).update p _).get q,
      ((PerPlayer.splat Amount.zero).update p _).get q⟩
    rw [PerPlayer.get_update, PerPlayer.get_update, PerPlayer.get_splat, PerPlayer.get_splat]
    split
    · exact ErrorTotal.sound_zero.add (ErrorTotal.sound_single nonneg)
    · exact ErrorTotal.sound_zero

theorem consistent_addCube (valid : ctx.options.validate = .ok ()) (c : CubeLines Rat)
    (action : CubeAction) : (addCube empty ctx s p c action).Consistent q := by
  obtain same | ⟨close, errors, active, sound, eq⟩ := addCube_cases empty ctx s p valid c action
  · rw [same]
    exact consistent_empty q
  · have ones (b : Bool) : (if b = true then (PerPlayer.splat 0).update p (· + 1)
        else PerPlayer.splat 0).get q = if p = q then b.toNat else 0 := by
      cases b <;> cases p <;> cases q <;> rfl
    have kinds : ((PerPlayer.splat CubeErrors.zero).update p errors).get q =
        if p = q then errors .zero else .zero := by
      rw [PerPlayer.get_update, PerPlayer.get_splat]
    have fits : (errors .zero).number ≤ close.toNat ∧ ∀ k, ((errors .zero).get k).Sound := by
      rcases sound with rfl | ⟨rfl, kind, cost, nonneg, rfl⟩
      · exact ⟨Nat.zero_le _, CubeErrors.sound_zero⟩
      · exact ⟨(CubeErrors.number_count _ kind cost).le,
          CubeErrors.sound_count CubeErrors.sound_zero nonneg kind⟩
    -- at most one of the three, and then a close decision
    have actions : (action == .double).toNat + (action == .take).toNat + (action == .pass).toNat ≤
        close.toNat := by
      cases action with
      | noDouble => exact Nat.zero_le _
      | double | take | pass =>
        rw [active (by decide)]
        exact Nat.le_refl 1
    rw [eq]
    refine { consistent_empty q with
      actions_le := ?_, close_le := ?_, errors_le := ?_, cube_sound := ?_ }
    · simp only [empty, ones]
      split
      · exact actions
      · exact Nat.le_refl 0
    · refine (ones close).le.trans ?_
      refine le_trans ?_ (ones true).ge
      split
      · exact close.toNat_le
      · exact Nat.le_refl 0
    · simp only [empty, ones, kinds, cubeErrorCount]
      split
      · exact fits.1
      · exact Nat.le_refl 0
    · intro k
      simp only [empty, kinds]
      split
      · exact fits.2 k
      · exact CubeErrors.sound_zero k

end

/-- **Merged counters fit together.** -/
theorem Consistent.merge {t u : Statistics Rat} {p : Player} (ht : t.Consistent p)
    (hu : u.Consistent p) : (t.merge u).Consistent p where
  moves_eq := by
    simp only [Statistics.merge, PerPlayer.get_add, SkillCounts.total_add, ht.moves_eq, hu.moves_eq]
  unforced_le := by
    simp only [Statistics.merge, PerPlayer.get_add]
    exact Nat.add_le_add ht.unforced_le hu.unforced_le
  actions_le := by
    have := ht.actions_le
    have := hu.actions_le
    simp only [Statistics.merge, PerPlayer.get_add]
    omega
  close_le := by
    simp only [Statistics.merge, PerPlayer.get_add]
    exact Nat.add_le_add ht.close_le hu.close_le
  errors_le := by
    simp only [Statistics.merge, cubeErrorCount, PerPlayer.get_add, CubeErrors.number_add]
    exact Nat.add_le_add ht.errors_le hu.errors_le
  cube_sound k := by
    simp only [Statistics.merge, PerPlayer.get_add, CubeErrors.get_add]
    exact (ht.cube_sound k).add (hu.cube_sound k)
  checker_sound := by
    simp only [Statistics.merge, PerPlayer.get_add]
    exact ht.checker_sound.add hu.checker_sound
  actual_games_eq := by
    simp only [Statistics.merge, PerPlayer.get_add]
    exact congrArg₂ (· + ·) ht.actual_games_eq hu.actual_games_eq
  adjusted_games_eq := by
    simp only [Statistics.merge, PerPlayer.get_add]
    exact congrArg₂ (· + ·) ht.adjusted_games_eq hu.adjusted_games_eq

/-- **A result keeps the counters in step.** -/
theorem Consistent.addResult {t : Statistics Rat} {p : Player} (ht : t.Consistent p)
    (ctx : Context Rat) (s : Stakes) (winner : Player) (points : Nat) :
    (t.addResult ctx s winner points).Consistent p :=
  { ht with
    actual_games_eq := by
      rw [Statistics.addResult, PerPlayer.get_ofFn]
      exact congrArg (· + 1) ht.actual_games_eq
    adjusted_games_eq := by
      rw [Statistics.addResult, PerPlayer.get_ofFn]
      exact congrArg (· + 1) ht.adjusted_games_eq }

/-! ## All statistics -/

/-- A record that is no result starts consistent counters. -/
theorem consistent_single (ctx : Context Rat) (r : Record Rat) (valid : ctx.options.validate = .ok ())
    (no_result : r.isResult = false) (p : Player) : (empty.add ctx r).Consistent p := by
  cases r with
  | play s q loss legal => exact consistent_addPlay ctx s q p loss legal
  | cube s q c action => exact consistent_addCube ctx s q p valid c action
  | luck s q amount =>
    rw [add, addLuck]
    split
    · exact { consistent_empty p with }
    · exact consistent_empty p
  | result => exact Bool.noConfusion no_result

/-- **A rate is missing only when its total is zero.** -/
theorem Consistent.total_eq_zero {t : Statistics Rat} {p : Player} (ht : t.Consistent p)
    (u : AmountUnit) :
    ((t.rates p u).checkerPerMove = none → (t.rates p u).checkerTotal = 0) ∧
      ((t.rates p u).cubePerDecision = none → (t.rates p u).cubeTotal = 0) := by
  have get_zero : (0 : Amount Rat).get u = 0 := by cases u <;> rfl
  constructor
  · intro missing
    have unforced : t.unforcedMoves.get p = 0 := Nat.cast_eq_zero.1 (quotient?_eq_none_iff.1 missing)
    have costless := ht.checker_sound.eq_zero unforced
    exact (congrArg (Amount.get · u) costless).trans get_zero
  · intro missing
    have close : t.closeCube.get p = 0 := Nat.cast_eq_zero.1 (quotient?_eq_none_iff.1 missing)
    have none : (t.cubeErrors.get p).number = 0 := Nat.le_zero.1 (ht.errors_le.trans close.le)
    have costless (k : CubeErrorKind) : ((t.cubeErrors.get p).get k).cost = 0 :=
      (ht.cube_sound k).eq_zero (Nat.le_zero.1 ((CubeErrors.count_le_number _ k).trans none.le))
    exact (congrArg (Amount.get · u) (CubeErrors.total_eq_zero _ costless)).trans get_zero

/-- **The counters of all statistics fit together**, and no error is left out of the rates: a rate is
missing only when its total is zero. -/
theorem counters_consistent (R : Recording Rat)
    (valid : R.Under fun ctx => ctx.options.validate = .ok ()) (p : Player) :
    R.statistics.Consistent p ∧ ∀ u,
      ((R.statistics.rates p u).checkerPerMove = none → (R.statistics.rates p u).checkerTotal = 0) ∧
      ((R.statistics.rates p u).cubePerDecision = none → (R.statistics.rates p u).cubeTotal = 0) := by
  have consistent : R.statistics.Consistent p := by
    refine Recording.statistics_induction (P := (·.Consistent p)) (consistent_empty p) ?_ ?_ ?_ R valid
    · intro ctx r valid no_result
      exact consistent_single ctx r valid no_result p
    · intro t ctx s winner points ht
      exact ht.addResult ctx s winner points
    · intro t u ht hu
      exact ht.merge hu
  exact ⟨consistent, consistent.total_eq_zero⟩

/-- A missed double and a wrong take in one part, plays without and with a choice in the other. -/
theorem missedDouble_counters :
    let ctx : Context Rat := ⟨.standard, ⟨fun _ _ _ => 1 / 2⟩⟩
    let c : CubeLines Rat := ⟨1 / 2, 6 / 5, 1, none, 1 / 5, .rolledOut⟩
    let play (legal : Nat) : Record Rat := .play (.money .one) .one (some (1 / 20)) legal
    let cube (p : Player) (action : CubeAction) : Record Rat := .cube (.money .zero) p c action
    let first := (Recording.blank.record ctx (cube .zero .noDouble)).record ctx (cube .one .take)
    let second := (Recording.blank.record ctx (play 1)).record ctx (play 3)
    let R := first.merge second
    R.Under (fun ctx => ctx.options.validate = .ok ()) ∧
      (R.statistics.cubeErrorCount .zero = 1 ∧ R.statistics.closeCube = ⟨1, 1⟩ ∧
        R.statistics.totalMoves = ⟨0, 2⟩ ∧ R.statistics.unforcedMoves = ⟨0, 1⟩) ∧
      R.statistics.Consistent .zero ∧
      (R.statistics.rates .zero .normalized).checkerPerMove = none ∧
      (R.statistics.rates .zero .normalized).checkerTotal = 0 := by
  intro ctx c play cube first second R
  have valid : ctx.options.validate = .ok () := by decide +kernel
  have under : R.Under fun ctx => ctx.options.validate = .ok () :=
    ⟨⟨⟨trivial, valid⟩, valid⟩, ⟨trivial, valid⟩, valid⟩
  have missing : (R.statistics.rates .zero .normalized).checkerPerMove = none := by decide +kernel
  obtain ⟨consistent, total_eq_zero⟩ := counters_consistent R under .zero
  exact ⟨under, by decide +kernel, consistent, missing, (total_eq_zero .normalized).1 missing⟩

end Statistics

end Analysis

end Backgammon
