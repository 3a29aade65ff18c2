import Backgammon.Config.Settings
import Backgammon.Proofs.Checks
import Backgammon.Proofs.Doubles.Order

/-!
# Proofs/Config/Fallbacks — where the settings of a phase come from

    player_N.chequer ──────────────────────▸ chequer ─▸ static
    player_N.cube ─────────────────▸ cube ─▸ chequer ─▸ static
    player_N.late ─────────────────▸ late ─▸ chequer ─▸ static
    player_N.late_cube ─▸ late_cube ─▸ cube ─▸ chequer ─▸ static
                        truncation ─▸ chequer ─▸ static

Settings are read one after the other, each with what has been read before as its default, and each is
checked as it is read.  What comes of it can be said without the order: every field is looked for along a
chain of names, and nothing is read unless all chains, those that both players share included, lead to
settings that are allowed.

* `Source.first?` — the first of some names that can be taken for what is wanted.
* `EvalSettings.resolve` — what a chain of stems leads to; `EvalSettings.load_eq_ok_iff` says when it is
  read.
* `Rollout.Phase` — the four things a player's settings are for, with their chains.
* `Rollout.Settings.ReadFrom`, `Rollout.Settings.readFrom_of_load` — all there is to know of settings that
  have been read.
* `Rollout.Settings.load_resolves` — every field of the nine settings comes from its chain, and a chain
  that leads out of the range is an error.
-/

namespace Backgammon

open Config

namespace Config

/-! ## Readings in a row -/

section

variable {ε β γ : Type}

/-- Of a reading and what follows it both succeed. -/
theorem bind_eq_ok_iff {read : Except ε β} {rest : β → Except ε γ} {c : γ} :
    (read >>= rest) = .ok c ↔ ∃ b, read = .ok b ∧ rest b = .ok c := by
  cases read with
  | error e => exact ⟨nofun, fun ⟨_, read, _⟩ => nomatch read⟩
  | ok b => exact ⟨fun h => ⟨b, rfl, h⟩, fun ⟨_, rfl, h⟩ => h⟩

theorem exists_of_isOk {read : Except ε β} (succeeds : read.isOk = true) : ∃ b, read = .ok b := by
  cases read with
  | error e => exact nomatch succeeds
  | ok b => exact ⟨b, rfl⟩

theorem checked_eq_ok_iff {settings : β} {check : Except (SettingError Float) Unit} {c : β} :
    checked settings check = .ok c ↔ check = .ok () ∧ settings = c := by
  cases check with
  | error e => exact ⟨nofun, nofun⟩
  | ok _ => exact ⟨fun h => ⟨rfl, Except.ok.inj h⟩, fun h => congrArg _ h.2⟩

end

/-! ## Names in a row -/

namespace Source

variable {β : Type} (src : Source) (convert : Value → Option β)

/-- **The first of some names that can be taken for what is wanted.** -/
def first? (names : List String) : Option β :=
  names.findSome? fun name => (src.get name).bind convert

/-- A name is tried before what the others give. -/
theorem first?_cons (name : String) (names : List String) (default : β) :
    (src.first? convert (name :: names)).getD default =
      ((src.get name).bind convert).getD ((src.first? convert names).getD default) := by
  rw [first?, List.findSome?_cons]
  cases (src.get name).bind convert <;> rfl

end Source

end Config

namespace EvalSettings

/-- Depth or noise is out of its range. -/
def OutOfRange (c : EvalSettings Float) : Prop :=
  maxPlies < c.plies ∨ c.noise.isNaN = true ∨ c.noise < 0 ∨ 1 < c.noise

theorem static_in_range : ¬(static : EvalSettings Float).OutOfRange := by
  rintro (deep | noisy | less | more)
  · exact absurd deep (Nat.not_lt_zero maxPlies)
  · exact absurd noisy (by decide +kernel)
  · exact absurd less (by decide +kernel)
  · exact absurd more (by decide +kernel)

/-- A depth that is a count beyond the limit is a double beyond it. -/
theorem maxPlies_lt_cast {n : Nat} (lt : maxPlies < n) : (maxPlies : Float) < (n : Float) := by
  have pos : 0 < n := Nat.zero_lt_of_lt lt
  have order : (3 : Int) ≤ n.log2 := Int.ofNat_le.2 ((Nat.le_log2 pos.ne').2 lt)
  exact Doubles.lt_ofNat (by decide +kernel) pos order (by decide) (by decide +kernel)

/-- Depths are compared as doubles, which tell those that are allowed from the others. -/
theorem checkRange_plies_iff {n : Nat} :
    checkRange "plies" (n : Float) 0 (maxPlies : Float) = .ok () ↔ n ≤ maxPlies := by
  rw [checkRange_eq_ok_iff]
  constructor
  · rintro ⟨-, -, le⟩
    exact Nat.le_of_not_lt fun lt => le (maxPlies_lt_cast lt)
  · revert n
    decide +kernel

/-- **What is checked** is that neither is out of its range. -/
theorem validate_eq_ok_iff {c : EvalSettings Float} : c.validate = .ok () ↔ ¬c.OutOfRange := by
  have both : c.validate = .ok () ↔ checkRange "plies" (c.plies : Float) 0 (maxPlies : Float) = .ok () ∧
      checkRange "noise" c.noise 0 1 = .ok () :=
    bind_eq_ok_iff.trans ⟨fun ⟨(), h⟩ => h, fun h => ⟨(), h⟩⟩
  rw [both, checkRange_plies_iff, checkRange_eq_ok_iff]
  simp only [OutOfRange, not_or, Nat.not_lt, Bool.not_eq_true]
  rfl

/-! ## Chains of stems -/

variable (src : Source)

/-- **What a chain of stems leads to**: for every field the first name that can be taken for it, and the
static evaluation where there is none. -/
def resolve (stems : List String) : EvalSettings Float :=
  let named (field : String) := stems.map (· ++ field)
  { plies := (src.first? Value.asNatural (named "_plies")).getD (static : EvalSettings Float).plies
    cubeful := (src.first? Value.asBool (named "_cubeful")).getD (static : EvalSettings Float).cubeful
    deterministic := (src.first? Value.asBool (named "_deterministic")).getD
      (static : EvalSettings Float).deterministic
    noise := (src.first? Value.asReal (named "_noise")).getD (static : EvalSettings Float).noise }

theorem resolve_nil : resolve src [] = static := rfl

theorem resolve_cons (stem : String) (stems : List String) :
    resolve src (stem :: stems) =
      { plies := src.natural (stem ++ "_plies") (resolve src stems).plies
        cubeful := src.bool (stem ++ "_cubeful") (resolve src stems).cubeful
        deterministic := src.bool (stem ++ "_deterministic") (resolve src stems).deterministic
        noise := src.real (stem ++ "_noise") (resolve src stems).noise } := by
  simp only [resolve, List.map_cons, Source.first?_cons]
  rfl

variable {src} {stem : String} {stems : List String} {c : EvalSettings Float}

/-- Settings to which depths beyond the limit are cut. -/
def capped (c : EvalSettings Float) : EvalSettings Float := { c with plies := min c.plies depthLimit }

theorem capped_eq_self (le : c.plies ≤ depthLimit) : c.capped = c := by
  rw [capped, Nat.min_eq_left le]

/-- A depth that is cut is still too deep. -/
theorem outOfRange_capped : c.capped.OutOfRange ↔ c.OutOfRange := by
  have depth : maxPlies < min c.plies depthLimit ↔ maxPlies < c.plies := by
    rw [Nat.lt_min]
    exact and_iff_left (by decide)
  exact or_congr_left depth

theorem plies_le_of_in_range (h : ¬c.OutOfRange) : c.plies ≤ depthLimit := by
  have shallow : c.plies ≤ maxPlies := Nat.le_of_not_lt fun deep => h (.inl deep)
  exact Nat.le_trans shallow (by decide)

/-- What is read is what the longer chain leads to, with its depth cut. -/
theorem load_eq_checked (le : (resolve src stems).plies ≤ depthLimit) :
    load src stem (resolve src stems) = checked (resolve src (stem :: stems)).capped
      (resolve src (stem :: stems)).capped.validate := by
  have depth : (((src.get (stem ++ "_plies")).bind Value.asNatural).map (min · depthLimit)).getD
      (resolve src stems).plies = min (src.natural (stem ++ "_plies") (resolve src stems).plies)
        depthLimit := by
    rw [Source.natural]
    cases (src.get (stem ++ "_plies")).bind Value.asNatural with
    | none => exact (Nat.min_eq_left le).symm
    | some n => rfl
  rw [resolve_cons, load, depth]
  rfl

/-- **Settings that fall back on a chain** are those of the longer chain, and are read if these are in
their ranges. -/
theorem load_eq_ok_iff (in_range : ¬(resolve src stems).OutOfRange) :
    load src stem (resolve src stems) = .ok c ↔
      resolve src (stem :: stems) = c ∧ ¬(resolve src (stem :: stems)).OutOfRange := by
  rw [load_eq_checked (plies_le_of_in_range in_range), checked_eq_ok_iff,
    validate_eq_ok_iff, outOfRange_capped, and_comm]
  refine and_congr_left fun ok => ?_
  rw [capped_eq_self (plies_le_of_in_range ok)]

end EvalSettings

namespace Rollout

open EvalSettings

/-! ## Phases -/

/-- **What a player's settings are for.** -/
inductive Phase where
  | chequer
  | cube
  | late
  | lateCube
deriving DecidableEq, Repr

namespace Phase

/-- The stem of the names for a phase. -/
def stem : Phase → String
  | chequer => "chequer"
  | cube => "cube"
  | late => "late"
  | lateCube => "late_cube"

/-- The stem of the names that are a player's own. -/
def ownStem (phase : Phase) : Player → String
  | .zero => "player_0." ++ phase.stem
  | .one => "player_1." ++ phase.stem

/-- The chain that both players share. -/
def chain : Phase → List String
  | chequer => ["chequer"]
  | cube => ["cube", "chequer"]
  | late => ["late", "chequer"]
  | lateCube => ["late_cube", "cube", "chequer"]

/-- The chain of a player, whose own settings come first. -/
def ownChain (phase : Phase) (p : Player) : List String := phase.ownStem p :: phase.chain

end Phase

/-- The chain of the settings with which trials are cut short. -/
def truncationChain : List String := ["truncation", "chequer"]

/-- **The chains of a rollout**, those that nobody uses when both players have their own included. -/
inductive IsChain : List String → Prop
  | shared (phase : Phase) : IsChain phase.chain
  | own (phase : Phase) (p : Player) : IsChain (phase.ownChain p)
  | truncation : IsChain truncationChain

/-- The settings of either player for a phase. -/
def Settings.phase {α : Type} (c : Settings α) : Phase → PerPlayer (EvalSettings α)
  | .chequer => c.chequer
  | .cube => c.cube
  | .late => c.late
  | .lateCube => c.lateCube

variable {src : Source} {c : Settings Float}

/-- Both players' settings fall back on the chain they share. -/
theorem loadBoth_eq_ok (phase : Phase) (in_range : ¬(resolve src phase.chain).OutOfRange)
    {both : PerPlayer (EvalSettings Float)}
    (loaded : loadBoth src phase.stem (resolve src phase.chain) = .ok both) :
    .ofFn (fun p => resolve src (phase.ownChain p)) = both ∧
      ∀ p, ¬(resolve src (phase.ownChain p)).OutOfRange := by
  obtain ⟨first, first_loaded, loaded⟩ := bind_eq_ok_iff.1 loaded
  obtain ⟨second, second_loaded, loaded⟩ := bind_eq_ok_iff.1 loaded
  obtain rfl := Except.ok.inj loaded
  obtain ⟨rfl, first_ok⟩ := (load_eq_ok_iff in_range).1 first_loaded
  obtain ⟨rfl, second_ok⟩ := (load_eq_ok_iff in_range).1 second_loaded
  refine ⟨rfl, ?_⟩
  rintro (_ | _)
  · exact first_ok
  · exact second_ok

namespace Settings

/-- **Settings that have been read from a source.** -/
structure ReadFrom (src : Source) (c : Settings Float) : Prop where
  trials : c.trials = src.natural "trials" (standard : Settings Float).trials
  batchSize : c.batchSize = src.natural "batch_size" (standard : Settings Float).batchSize
  parallelism : loadParallelism src (standard : Settings Float).parallelism = .ok c.parallelism
  phase : ∀ phase p, (c.phase phase).get p = resolve src (phase.ownChain p)
  truncation : c.truncation = resolve src truncationChain
  moveFilters : c.moveFilters = List.replicate maxPlies (MoveFilter.load src)
  valid : c.validate = .ok ()
  in_range : ∀ {stems}, IsChain stems → ¬(resolve src stems).OutOfRange

/-- **What has been read** is known from the source alone, whatever was read first. -/
theorem readFrom_of_load (loaded : Settings.load src = .ok c) : c.ReadFrom src := by
  -- one reading after the other: a chain is known to be in its range before another falls back on it
  obtain ⟨_, step, loaded⟩ := bind_eq_ok_iff.1 loaded
  obtain ⟨rfl, chequer⟩ := (@load_eq_ok_iff src "chequer" [] _ static_in_range).1 step
  obtain ⟨_, step, loaded⟩ := bind_eq_ok_iff.1 loaded
  obtain ⟨rfl, cube⟩ := (load_eq_ok_iff chequer).1 step
  obtain ⟨_, step, loaded⟩ := bind_eq_ok_iff.1 loaded
  obtain ⟨rfl, late⟩ := (load_eq_ok_iff chequer).1 step
  obtain ⟨_, step, loaded⟩ := bind_eq_ok_iff.1 loaded
  obtain ⟨rfl, lateCube⟩ := (load_eq_ok_iff cube).1 step
  obtain ⟨_, parallelism, loaded⟩ := bind_eq_ok_iff.1 loaded
  obtain ⟨_, step, loaded⟩ := bind_eq_ok_iff.1 loaded
  obtain ⟨rfl, ownChequer⟩ := loadBoth_eq_ok .chequer chequer step
  obtain ⟨_, step, loaded⟩ := bind_eq_ok_iff.1 loaded
  obtain ⟨rfl, ownCube⟩ := loadBoth_eq_ok .cube cube step
  obtain ⟨_, step, loaded⟩ := bind_eq_ok_iff.1 loaded
  obtain ⟨rfl, ownLate⟩ := loadBoth_eq_ok .late late step
  obtain ⟨_, step, loaded⟩ := bind_eq_ok_iff.1 loaded
  obtain ⟨rfl, ownLateCube⟩ := loadBoth_eq_ok .lateCube lateCube step
  obtain ⟨_, step, loaded⟩ := bind_eq_ok_iff.1 loaded
  obtain ⟨rfl, truncation⟩ := (load_eq_ok_iff chequer).1 step
  obtain ⟨valid, rfl⟩ := checked_eq_ok_iff.1 loaded
  have shared : ∀ phase : Phase, ¬(resolve src phase.chain).OutOfRange
    | .chequer => chequer
    | .cube => cube
    | .late => late
    | .lateCube => lateCube
  have own : ∀ (phase : Phase) p, ¬(resolve src (phase.ownChain p)).OutOfRange
    | .chequer => ownChequer
    | .cube => ownCube
    | .late => ownLate
    | .lateCube => ownLateCube
  refine ⟨rfl, rfl, parallelism, fun phase p => ?_, rfl, rfl, valid, ?_⟩
  · cases phase <;> exact PerPlayer.get_ofFn (fun p => resolve src (Phase.ownChain _ p)) p
  · rintro _ (phase | ⟨phase, p⟩ | _)
    · exact shared phase
    · exact own phase p
    · exact truncation

/-- There is a filter for every depth at which a search needs one. -/
theorem ReadFrom.moveFilter?_eq (read : c.ReadFrom src) {depth : Nat} (pos : 1 ≤ depth)
    (le : depth ≤ maxPlies) : c.moveFilter? depth = some (MoveFilter.load src) := by
  rw [moveFilter?, if_neg (Nat.ne_of_gt pos), read.moveFilters,
    List.getElem?_replicate_of_lt (Nat.sub_one_lt_of_le pos le)]

theorem ReadFrom.plies_le (read : c.ReadFrom src) {stems : List String} (chain : IsChain stems) :
    (resolve src stems).plies ≤ maxPlies :=
  Nat.le_of_not_lt fun deep => read.in_range chain (.inl deep)

/-- **Every phase has its own chain.**  When settings have been read, what holds for a player in a phase,
and what holds where trials are cut short, is field by field the first name of its chain that can be taken
for that field; all of it is allowed.  When a chain leads out of the range, there are no settings. -/
theorem load_resolves (src : Source) :
    (∀ c, Settings.load src = .ok c →
      (∀ phase p, (c.phase phase).get p = resolve src (phase.ownChain p) ∧
        ((c.phase phase).get p).plies ≤ 7) ∧
      (c.truncation = resolve src truncationChain ∧ c.truncation.plies ≤ 7) ∧
      c.validate = .ok () ∧
      ∀ depth, 1 ≤ depth → depth ≤ 7 → c.moveFilter? depth = some (MoveFilter.load src)) ∧
    ∀ stems, IsChain stems → (resolve src stems).OutOfRange → ∃ e, Settings.load src = .error e := by
  refine ⟨fun c loaded => ?_, fun stems chain outside => ?_⟩
  · have read := readFrom_of_load loaded
    refine ⟨fun phase p => ?_, ?_, read.valid, fun depth => read.moveFilter?_eq⟩
    · rw [read.phase]
      exact ⟨rfl, read.plies_le (.own phase p)⟩
    · rw [read.truncation]
      exact ⟨rfl, read.plies_le .truncation⟩
  · cases loaded : Settings.load src with
    | error e => exact ⟨e, rfl⟩
    | ok c => exact absurd outside ((readFrom_of_load loaded).in_range chain)

/-- Late in a game the cube falls back on the cube, not on what is late; and a depth that nobody would
use, since both players have their own, is refused all the same. -/
theorem lateCube_resolves :
    let src : Source :=
      { document := [⟨["cube_plies"], .value (.integer 2)⟩, ⟨["late_plies"], .value (.integer 3)⟩,
          ⟨["rollout"], .object⟩, ⟨["rollout", "chequer_plies"], .value (.integer 1)⟩,
          ⟨["rollout", "player_1", "cube_plies"], .value (.text "none")⟩]
        environment := [("late_cube_noise", "0.5")]
        scope := "rollout" }
    let deep : Source :=
      { document := [⟨["late_plies"], .value (.integer 300)⟩]
        environment := [("player_0.late_plies", "2"), ("player_1.late_plies", "3")]
        scope := "rollout" }
    (∃ c, Settings.load src = .ok c ∧
      (∀ p, c.lateCube.get p = ⟨2, true, true, 0.5⟩ ∧ c.cube.get p = ⟨2, true, true, 0⟩) ∧
      c.truncation = ⟨1, true, true, 0⟩) ∧
    ∃ e, Settings.load deep = .error e := by
  intro src deep
  refine ⟨?_, (load_resolves deep).2 _ (.shared .late) (.inl (by decide +kernel))⟩
  obtain ⟨c, loaded⟩ : ∃ c, Settings.load src = .ok c := exists_of_isOk (by decide +kernel)
  obtain ⟨phases, truncation, -⟩ := (load_resolves src).1 c loaded
  refine ⟨c, loaded, fun p => ⟨(phases .lateCube p).1.trans ?_, (phases .cube p).1.trans ?_⟩,
    truncation.1.trans ?_⟩
  · cases p <;> decide +kernel
  · cases p <;> decide +kernel
  · decide +kernel

end Settings

end Rollout

end Backgammon
