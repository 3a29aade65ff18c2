import Backgammon.Proofs.Config.Entries
import Backgammon.Proofs.Config.Fallbacks
import Backgammon.Proofs.Rollout.Batch

/-!
# Proofs/Config/Counts — what becomes of a whole number

    n ──asNatural──▸ n,        0 ≤ n         ──checked──▸  the setting, or an error
                     nothing,  n < 0         ──────────▸  the default

Four settings count something: trials, trials in a batch, workers, and plies of search.  A whole number
that is configured for one of them is the setting, or there are no settings.  That holds from zero up.  A
negative number is none that counts, and what cannot be taken for a number is as good as nothing: it is
replaced by the default, and no check ever sees it.

* `Count` — the four settings, with their names, defaults and checks.
* `Source.Configures` — a name has a value in the scope or at the root, and none in the environment.
* `Settings.load_count` — a count is used or refused; a negative number is read as the default.
* `Settings.load_negative` — a text that says nothing but a negative number gives the standard settings.
-/

namespace Backgammon

open Config

namespace Config.Source

/-- **A name is configured**: in the scope, or at the root and not in the scope; the environment does not
override it. -/
structure Configures (src : Source) (name : String) (v : Value) : Prop where
  not_overridden : src.environment.lookup name = none
  set : src.document.Sets (src.scope :: Path.ofName name) v ∨
    src.document.lookup (src.scope :: Path.ofName name) = none ∧ src.document.Sets (Path.ofName name) v

variable {src : Source} {name : String} {v : Value}

theorem Configures.get_eq (h : src.Configures name v) : src.get name = some v := by
  simp only [get, h.not_overridden]
  rcases h.set with inside | ⟨outside, at_root⟩
  · rw [Document.lookup_eq_some_iff.2 inside, Option.some_or]
  · rw [outside, Document.lookup_eq_some_iff.2 at_root, Option.none_or]

/-- A negative number is none that counts. -/
theorem natural_of_integer {n : Int} (found : src.get name = some (.integer n)) (default : Nat) :
    src.natural name default = if 0 ≤ n then n.toNat else default := by
  rw [natural, found, Option.bind_some, Value.asNatural]
  split <;> rfl

/-- **Two sources differ under some names only.** -/
structure AgreeBut (src : Source) (names : List String) (src' : Source) : Prop where
  get : ∀ other ∉ names, src.get other = src'.get other
  environment : src.environment = src'.environment

variable {src' : Source} {names : List String} {other : String} (agree : src.AgreeBut names src')
  (notMem : other ∉ names)

include agree notMem

theorem AgreeBut.bool_eq (default : Bool) : src.bool other default = src'.bool other default := by
  rw [bool, bool, agree.get other notMem]

theorem AgreeBut.natural_eq (default : Nat) : src.natural other default = src'.natural other default := by
  rw [natural, natural, agree.get other notMem]

theorem AgreeBut.real_eq (default : Float) : src.real other default = src'.real other default := by
  rw [real, real, agree.get other notMem]

end Config.Source

namespace EvalSettings

variable {src src' : Source} {stem : String} {default : EvalSettings Float}

/-- What follows the stem in the names of the fields. -/
def fields : List String := ["_plies", "_cubeful", "_deterministic", "_noise"]

theorem load_congr (same : ∀ field ∈ fields, src.get (stem ++ field) = src'.get (stem ++ field)) :
    load src stem default = load src' stem default := by
  simp only [fields, List.forall_mem_cons] at same
  obtain ⟨plies, cubeful, deterministic, noise, -⟩ := same
  simp only [load, Source.bool, Source.real, plies, cubeful, deterministic, noise]

end EvalSettings

namespace Rollout

open EvalSettings

/-- **The settings that count something.** -/
inductive Count where
  | trials
  | batchSize
  | parallelism
  | chequerPlies
deriving DecidableEq, Repr

namespace Count

/-- The name under which it is configured. -/
def key : Count → String
  | trials => "trials"
  | batchSize => "batch_size"
  | parallelism => "parallelism"
  | chequerPlies => "chequer_plies"

/-- The names under which it is found when the scope is that of a rollout. -/
def names (k : Count) : List String := [k.key, "rollout." ++ k.key]

/-- What it is when it is not configured. -/
def default : Count → Nat
  | trials => (Settings.standard : Settings Float).trials
  | batchSize => (Settings.standard : Settings Float).batchSize
  | parallelism => (Settings.standard : Settings Float).parallelism
  | chequerPlies => (static : EvalSettings Float).plies

/-- What it may be. -/
def Allows : Count → Nat → Prop
  | chequerPlies, m => m ≤ maxPlies
  | _, m => 0 < m

/-- **The setting is `m`**; for the plies of search, with every player who has none of his own. -/
def Is (src : Source) (c : Settings Float) (m : Nat) : Count → Prop
  | trials => c.trials = m
  | batchSize => c.batchSize = m
  | parallelism => c.parallelism = m
  | chequerPlies => ∀ p,
      (src.get (Phase.chequer.ownStem p ++ "_plies")).bind Value.asNatural = none →
        (c.chequer.get p).plies = m

end Count

namespace Settings

variable {src src' : Source} {c : Settings Float} {k : Count} {n : Int}

/-- **A number that is configured is the setting**, unless it is negative. -/
theorem ReadFrom.count (read : c.ReadFrom src) (configured : src.get k.key = some (.integer n))
    (no_workers : src.environment.lookup "ROLLOUT_PARALLELISM" = none) :
    k.Is src c (if 0 ≤ n then n.toNat else k.default) := by
  have natural := Source.natural_of_integer configured
  cases k with
  | trials => exact read.trials.trans (natural _)
  | batchSize => exact read.batchSize.trans (natural _)
  | parallelism =>
    have workers := read.parallelism
    rw [loadParallelism, Environment.natural?, no_workers] at workers
    exact (Except.ok.inj workers).symm.trans (natural _)
  | chequerPlies =>
    intro p none_own
    have plies := congrArg EvalSettings.plies (read.phase .chequer p)
    rw [Phase.ownChain, resolve_cons, Phase.chain, resolve_cons, resolve_nil] at plies
    refine plies.trans ?_
    rw [Source.natural, none_own, Option.getD_none]
    exact natural _

/-- A number that is configured is allowed, unless it is negative. -/
theorem ReadFrom.allows (read : c.ReadFrom src) (configured : src.get k.key = some (.integer n))
    (no_workers : src.environment.lookup "ROLLOUT_PARALLELISM" = none) (nonneg : 0 ≤ n) :
    k.Allows n.toNat := by
  have count := read.count configured no_workers
  rw [if_pos nonneg] at count
  obtain ⟨trials, batchSize, parallelism⟩ := pos_of_validate read.valid
  cases k with
  | trials => exact count ▸ trials
  | batchSize => exact count ▸ batchSize
  | parallelism => exact count ▸ parallelism
  | chequerPlies =>
    -- the depth is checked where both players share it, whether or not they use it
    have shared := read.plies_le (.shared .chequer)
    have depth := Source.natural_of_integer configured (resolve src []).plies
    rw [if_pos nonneg] at depth
    rw [Phase.chain, resolve_cons] at shared
    exact depth ▸ shared

/-- The settings on which all others fall back are read alike. -/
theorem loadChequer_congr (agree : src.AgreeBut k.names src')
    (same : src.natural k.key k.default = src'.natural k.key k.default) :
    EvalSettings.load src "chequer" static = EvalSettings.load src' "chequer" static := by
  have plies : src.natural "chequer_plies" (static : EvalSettings Float).plies =
      src'.natural "chequer_plies" (static : EvalSettings Float).plies := by
    cases k with
    | chequerPlies => exact same
    | trials => exact agree.natural_eq (by decide) _
    | batchSize => exact agree.natural_eq (by decide) _
    | parallelism => exact agree.natural_eq (by decide) _
  have name : "chequer" ++ "_plies" = "chequer_plies" := by decide
  have chain : resolve src ["chequer"] = resolve src' ["chequer"] := by
    rw [resolve_cons, resolve_cons, resolve_nil, resolve_nil, name, plies]
    cases k <;> simp (disch := decide) only [agree.bool_eq, agree.real_eq]
  have loaded := @load_eq_checked src "chequer" [] (Nat.zero_le _)
  have loaded' := @load_eq_checked src' "chequer" [] (Nat.zero_le _)
  rw [resolve_nil] at loaded loaded'
  rw [loaded, chain, loaded']

/-- **Sources that differ in a count only**, and agree on the number it is taken for, have the same
settings. -/
theorem load_congr (agree : src.AgreeBut k.names src')
    (same : src.natural k.key k.default = src'.natural k.key k.default) :
    Settings.load src = Settings.load src' := by
  have first : EvalSettings.load src "chequer" (standard : Settings Float).chequer.zero =
      EvalSettings.load src' "chequer" (standard : Settings Float).chequer.zero :=
    loadChequer_congr agree same
  have evals {stem : String} {c : EvalSettings Float} (notMem : ∀ field ∈ fields, stem ++ field ∉ k.names) :
      EvalSettings.load src stem c = EvalSettings.load src' stem c :=
    EvalSettings.load_congr fun field mem => agree.get _ (notMem field mem)
  cases k <;> simp only [Count.key, Count.default] at same <;>
    simp (disch := decide) only [Settings.load, loadBoth, loadParallelism, StoppingRule.load,
      MoveFilter.load, agree.environment, agree.get, agree.bool_eq, agree.natural_eq, agree.real_eq, evals,
      first, same]

/-! ## A text that says nothing else -/

/-- A configuration with nothing in it. -/
def emptySource : Source := ⟨[⟨["rollout"], .object⟩], [], "rollout"⟩

theorem get_emptySource (name : String) : emptySource.get name = none := by
  simp only [emptySource, Source.get, List.lookup_nil, Document.lookup_object, Option.or_none]

theorem evalSettings_load_emptySource (stem : String) :
    EvalSettings.load emptySource stem static = .ok static := by
  have chain : resolve emptySource [stem] = static := by
    simp only [resolve_cons, resolve_nil, Source.natural, Source.bool, Source.real, get_emptySource,
      Option.bind_none, Option.getD_none]
  exact (@load_eq_ok_iff emptySource stem [] static static_in_range).2 ⟨chain, chain ▸ static_in_range⟩

/-- Where nothing is configured the settings are the standard ones. -/
theorem load_emptySource : Settings.load emptySource = .ok .standard := by
  have first : (standard : Settings Float).chequer.zero = static := rfl
  have ok_bind {β γ : Type} (b : β) (rest : β → Except LoadError γ) : (Except.ok b >>= rest) = rest b :=
    rfl
  have workers : loadParallelism emptySource (standard : Settings Float).parallelism =
      .ok (standard : Settings Float).parallelism := by rfl
  have allowed : (standard : Settings Float).validate = .ok () := by decide +kernel
  simp only [Settings.load, loadBoth, StoppingRule.load, MoveFilter.load, Source.natural, Source.bool,
    Source.real, get_emptySource, Option.bind_none, Option.getD_none, first, evalSettings_load_emptySource,
    workers, ok_bind, pure_bind]
  exact checked_eq_ok_iff.2 ⟨allowed, rfl⟩

/-- A configuration with a count in it. -/
def countSource (k : Count) (n : Int) : Source :=
  ⟨[⟨["rollout"], .object⟩, ⟨["rollout", k.key], .value (.integer n)⟩], [], "rollout"⟩

theorem ofText_count (k : Count) (fits : fitsInteger n = true) :
    Source.ofText ("rollout" ++ " \x7b " ++ k.key ++ " = " ++ toString n ++ " \x7d") [] "rollout" =
      .ok (countSource k n) := by
  have word : IsWord k.key := by cases k <;> decide
  rw [Source.ofText, read?_entry (by decide) word fits]
  rfl

theorem configures_countSource (k : Count) (n : Int) :
    (countSource k n).Configures k.key (.integer n) := by
  have path : Path.ofName k.key = [k.key] := by cases k <;> decide
  refine ⟨rfl, .inl ⟨[⟨["rollout"], .object⟩], [], ?_, nofun⟩⟩
  rw [path]
  rfl

theorem agreeBut_countSource (k : Count) (n : Int) : (countSource k n).AgreeBut k.names emptySource := by
  have path : Path.ofName k.key = [k.key] := by cases k <;> decide
  have scoped_path : Path.ofName ("rollout." ++ k.key) = ["rollout", k.key] := by cases k <;> decide
  refine ⟨fun other notMem => ?_, rfl⟩
  rw [Count.names, List.mem_cons, List.mem_singleton, not_or] at notMem
  have not_key : Path.ofName other ≠ [k.key] := path ▸ Path.ofName_injective.ne notMem.1
  have not_scoped : Path.ofName other ≠ ["rollout", k.key] :=
    scoped_path ▸ Path.ofName_injective.ne notMem.2
  rw [get_emptySource]
  simp only [countSource, Source.get, List.lookup_nil, Document.lookup_entry, List.cons.injEq, true_and,
    not_key, not_scoped, if_false, Option.or_none]

/-- **A negative number by itself is not refused**: a text that says nothing else gives the standard
settings. -/
theorem load_negative (k : Count) (negative : n < 0) (fits : fitsInteger n = true) :
    (Source.ofText ("rollout" ++ " \x7b " ++ k.key ++ " = " ++ toString n ++ " \x7d") [] "rollout" >>=
      Settings.load) = .ok .standard := by
  have found := (configures_countSource k n).get_eq
  have same : (countSource k n).natural k.key k.default = emptySource.natural k.key k.default := by
    rw [Source.natural_of_integer found, if_neg (Int.not_le.2 negative), Source.natural, get_emptySource]
    rfl
  rw [ofText_count k fits]
  exact (load_congr (agreeBut_countSource k n) same).trans load_emptySource

/-! ## Used, refused or replaced -/

/-- **A count is used or refused, unless it is negative.**  A number from zero up that is configured for a
count is the setting if there are settings, and there are none if it is not allowed.  Of a negative number
nothing is left: the setting is the default. -/
theorem load_count (src : Source) (k : Count) (n : Int) (configured : src.Configures k.key (.integer n))
    (no_workers : src.environment.lookup "ROLLOUT_PARALLELISM" = none) :
    (0 ≤ n → (∀ c, Settings.load src = .ok c → k.Is src c n.toNat) ∧
      (¬k.Allows n.toNat → ∃ e, Settings.load src = .error e)) ∧
    (n < 0 → ∀ c, Settings.load src = .ok c → k.Is src c k.default) := by
  refine ⟨fun nonneg => ⟨fun c loaded => ?_, fun refused => ?_⟩, fun negative c loaded => ?_⟩
  · have count := (readFrom_of_load loaded).count configured.get_eq no_workers
    rwa [if_pos nonneg] at count
  · cases loaded : Settings.load src with
    | error e => exact ⟨e, rfl⟩
    | ok c => exact absurd ((readFrom_of_load loaded).allows configured.get_eq no_workers nonneg) refused
  · have count := (readFrom_of_load loaded).count configured.get_eq no_workers
    rwa [if_neg (Int.not_le.2 negative)] at count

/-- A depth that is configured for a rollout is that of both players who have none of their own. -/
theorem two_plies_counted :
    Source.ofText "rollout \x7b chequer_plies = 2 \x7d" [] "rollout" = .ok (countSource .chequerPlies 2) ∧
      ∃ c, Settings.load (countSource .chequerPlies 2) = .ok c ∧ ∀ p, (c.chequer.get p).plies = 2 := by
  refine ⟨rfl, ?_⟩
  have counted := load_count _ .chequerPlies 2 (configures_countSource .chequerPlies 2) rfl
  obtain ⟨c, loaded⟩ : ∃ c, Settings.load (countSource .chequerPlies 2) = .ok c :=
    exists_of_isOk (by decide +kernel)
  refine ⟨c, loaded, fun p => (counted.1 (by decide)).1 c loaded p ?_⟩
  cases p <;> rfl

/-- Minus five trials are asked for, and there are settings, with another number of trials. -/
theorem negative_trials_replaced :
    Source.ofText "rollout \x7b trials = -5 \x7d" [] "rollout" = .ok (countSource .trials (-5)) ∧
      (countSource .trials (-5)).Configures "trials" (.integer (-5)) ∧
      ∃ c, Settings.load (countSource .trials (-5)) = .ok c ∧ c.trials = 1296 ∧ (c.trials : Int) ≠ -5 := by
  have loaded : Settings.load (countSource .trials (-5)) = .ok .standard :=
    (load_congr (agreeBut_countSource .trials (-5)) rfl).trans load_emptySource
  exact ⟨rfl, configures_countSource .trials (-5), .standard, loaded, rfl, by decide⟩

end Settings

end Rollout

end Backgammon
