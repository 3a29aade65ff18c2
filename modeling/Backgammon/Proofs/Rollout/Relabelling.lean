import Backgammon.Proofs.Rollout.Turns

/-!
# Proofs/Rollout/Relabelling — the names of the players do not matter

    zero ⇄ one      on roll · owner of the cube · score · settings of either player

Everything that is kept for a player is looked up by the name of the player on roll or of the opponent.
If the two trade their names, and everything that is kept for them goes along, every look-up finds what
it found before.

* `Stakes.relabelled`, `Settings.relabelled` — the two players trade names.
* `MatchEquity.afterGame_relabelled`, `Analysis.verdict_relabelled` — match winning chances and cube
  decisions stay as they are.
* `Arena.IgnoresNames` — an evaluator that does not look at the names.
* `IgnoresNames.turn`, `IgnoresNames.playOn` — then a turn is the same under the other names, and so is
  the rest of a trial.
* `play_relabelled` — whole trials.
-/

namespace Backgammon

open Analysis

/-! ## Stakes and settings under the other names -/

namespace Stakes

/-- **The players trade names**: what was held of player zero is held of player one. -/
def relabelled (s : Stakes) : Stakes :=
  { s with owner := s.owner.map Player.opponent, onRoll := s.onRoll.opponent, score := s.score.swap }

variable (s : Stakes)

@[simp] theorem isMoney_relabelled : s.relabelled.isMoney = s.isMoney := rfl

@[simp] theorem onRoll_relabelled : s.relabelled.onRoll = s.onRoll.opponent := rfl

@[simp] theorem isCentered_relabelled : s.relabelled.isCentered = s.isCentered := by
  rw [isCentered, isCentered, relabelled, Option.isNone_map]

@[simp] theorem gammonsCount_relabelled : s.relabelled.gammonsCount = s.gammonsCount := by
  rw [gammonsCount, gammonsCount, isCentered_relabelled]
  rfl

@[simp] theorem away_relabelled (p : Player) : s.relabelled.away p.opponent = s.away p := by
  simp [away, relabelled]

@[simp] theorem swapTurn_relabelled : s.relabelled.swapTurn = s.swapTurn.relabelled := rfl

@[simp] theorem doubled_relabelled : s.relabelled.doubled = s.doubled.relabelled := rfl

theorem mayTurn_relabelled : s.relabelled.mayTurn = s.mayTurn := by
  rw [mayTurn, mayTurn, relabelled]
  cases s.owner with
  | none => rfl
  | some p => cases p <;> cases s.onRoll <;> rfl

@[simp] theorem cubeAvailable_relabelled : s.relabelled.cubeAvailable = s.cubeAvailable := by
  have away : s.relabelled.away s.relabelled.onRoll = s.away s.onRoll := s.away_relabelled s.onRoll
  rw [cubeAvailable, cubeAvailable, mayTurn_relabelled, away]
  rfl

end Stakes

section

variable {α : Type} (met : MatchEquity α) (s : Stakes)

namespace MatchEquity

/-- **A match after a game** is the same under the other names. -/
theorem afterGame_relabelled (winner : Player) (points : Nat) :
    met.afterGame s.relabelled winner.opponent points = met.afterGame s winner points := by
  have same (p : Player) : (p.opponent = winner.opponent) = (p = winner) := by
    cases p <;> cases winner <;> simp [Player.opponent]
  have onRoll : s.relabelled.onRoll = s.onRoll.opponent := rfl
  simp only [afterGame, onRoll, s.away_relabelled, same]
  rfl

@[simp] theorem ifWon_relabelled : met.ifWon s.relabelled = met.ifWon s :=
  met.afterGame_relabelled s s.onRoll s.cube

@[simp] theorem ifLost_relabelled : met.ifLost s.relabelled = met.ifLost s :=
  met.afterGame_relabelled s s.onRoll.opponent s.cube

variable [Scalar α]

@[simp] theorem toEquity_relabelled (chance : α) :
    met.toEquity s.relabelled chance = met.toEquity s chance := by
  rw [toEquity, toEquity, ifWon_relabelled, ifLost_relabelled]

@[simp] theorem valueEquity_relabelled (value : α) :
    met.valueEquity s.relabelled value = met.valueEquity s value := by
  rw [valueEquity, valueEquity, toEquity_relabelled]
  rfl

@[simp] theorem normalized_relabelled (v : Equities α) (cubeful : Bool) :
    met.normalized s.relabelled v cubeful = met.normalized s v cubeful := by
  rw [normalized, normalized, valueEquity_relabelled]

@[simp] theorem outcomeValue_relabelled (o : Outcome) :
    met.outcomeValue s.relabelled o = met.outcomeValue s o := by
  obtain ⟨winner, kind⟩ := o
  rw [outcomeValue, outcomeValue, s.gammonsCount_relabelled]
  cases winner with
  | onRoll => exact congrArg (ite _ _) (met.afterGame_relabelled s s.onRoll _)
  | opponent => exact congrArg (ite _ _) (met.afterGame_relabelled s s.onRoll.opponent _)

end MatchEquity

variable [Scalar α]

@[simp] theorem CubeLines.ofEvaluations_relabelled (noDouble doubleTake : Equities α)
    (p : Provenance) :
    CubeLines.ofEvaluations met s.relabelled noDouble doubleTake p =
      CubeLines.ofEvaluations met s noDouble doubleTake p := by
  simp only [ofEvaluations, met.valueEquity_relabelled, met.toEquity_relabelled, met.ifWon_relabelled]
  rfl

/-- **A cube decision** goes by who owns the cube and who is on roll, not by their names. -/
@[simp] theorem Analysis.verdict_relabelled (ctx : Context α) (c : CubeLines α) :
    verdict ctx c s.relabelled = verdict ctx c s := by
  have word (initial redouble : CubeDecision) :
      initialOrRe s.relabelled initial redouble = initialOrRe s initial redouble := by
    rw [initialOrRe, initialOrRe, s.isCentered_relabelled]
  have dead : deadVerdict c s.relabelled = deadVerdict c s := by
    have owns : (s.relabelled.owner != some s.relabelled.onRoll.opponent) =
        (s.owner != some s.onRoll.opponent) := by
      rw [Stakes.relabelled]
      cases s.owner with
      | none => rfl
      | some p => cases p <;> cases s.onRoll <;> rfl
    rw [deadVerdict, deadVerdict, owns, word]
    rfl
  have beaver : inBeaverRegion c s.relabelled = inBeaverRegion c s := rfl
  simp only [verdict, s.cubeAvailable_relabelled, dead, takeVerdict, passVerdict, tooGoodPassVerdict,
    noDoubleVerdict, word, beaver, s.gammonsCount_relabelled]

end

namespace Rollout

namespace Settings

variable {α : Type} (c : Settings α)

/-- **The players trade names, and take their settings along.** -/
def relabelled : Settings α :=
  { c with
    chequer := c.chequer.swap
    cube := c.cube.swap
    late := c.late.swap
    lateCube := c.lateCube.swap }

@[simp] theorem forPlay_relabelled (p : Player) (ply : Nat) :
    c.relabelled.forPlay p.opponent ply = c.forPlay p ply := by cases p <;> rfl

@[simp] theorem forCube_relabelled (p : Player) (ply : Nat) :
    c.relabelled.forCube p.opponent ply = c.forCube p ply := by cases p <;> rfl

end Settings

/-! ## One turn under the other names -/

section

variable {δ α Board : Type}

/-- The same trial under the other names. -/
def Trial.relabelled (t : Trial δ α Board) : Trial δ α Board :=
  { t with stakes := t.stakes.relabelled }

/-- The same turn under the other names. -/
def Turn.relabelled : Turn δ α Board → Turn δ α Board
  | .over v => .over v
  | .interrupted => .interrupted
  | .next t => .next t.relabelled

end

variable {m : Type → Type} {δ α Board Move : Type}

namespace Arena

/-- The same arena, with the settings of the players under the other names. -/
def relabelled (a : Arena m δ α Board Move) : Arena m δ α Board Move :=
  { a with settings := a.settings.relabelled }

section

variable (a : Arena m δ α Board Move)

@[simp] theorem game_relabelled : a.relabelled.game = a.game := rfl

@[simp] theorem met_relabelled : a.relabelled.met = a.met := rfl

@[simp] theorem settings_relabelled : a.relabelled.settings = a.settings.relabelled := rfl

@[simp] theorem mayDouble_relabelled (s : Stakes) (ply : Nat) :
    a.relabelled.mayDouble s.relabelled ply = a.mayDouble s ply := by
  rw [mayDouble, mayDouble, s.cubeAvailable_relabelled]
  rfl

end

variable [Scalar α]

/-- **The evaluator does not look at the names** of the players. -/
def IgnoresNames (a : Arena m δ α Board Move) : Prop :=
  ∀ board s c, a.evaluator board s.relabelled c = a.evaluator board s c

namespace IgnoresNames

variable [Monad m] {a : Arena m δ α Board Move} (ignores : a.IgnoresNames)
include ignores

theorem evaluate (board : Board) (s : Stakes) (c : EvalSettings α) :
    a.relabelled.evaluate board s.relabelled c = a.evaluate board s c := by
  rw [Arena.evaluate, Arena.evaluate]
  exact congrArg (fun answer => ExceptT.adapt _ answer >>= _) (ignores board s c)

theorem equityAfter (next : Board) (s : Stakes) (c : EvalSettings α) :
    a.relabelled.equityAfter next s.relabelled c = a.equityAfter next s c := by
  simp only [Arena.equityAfter, s.swapTurn_relabelled, ignores.evaluate, game_relabelled,
    met_relabelled, MatchEquity.valueEquity_relabelled, MatchEquity.outcomeValue_relabelled,
    MatchEquity.normalized_relabelled]

theorem rate (board : Board) (s : Stakes) (c : EvalSettings α) (index : Nat) (move : Move) :
    a.relabelled.rate board s.relabelled c index move = a.rate board s c index move := by
  rw [Arena.rate, Arena.rate, game_relabelled, ignores.equityAfter]

/-- **The same moves are chosen.** -/
theorem playRoll (board : Board) (s : Stakes) (roll : Dice) (c : EvalSettings α) :
    a.relabelled.playRoll board s.relabelled roll c = a.playRoll board s roll c := by
  have filter : a.relabelled.settings.moveFilter? = a.settings.moveFilter? := rfl
  simp only [Arena.playRoll, Arena.chooseMove, game_relabelled, filter, ignores.rate]

/-- **The cube is turned and answered alike.** -/
theorem cubeAction (board : Board) (s : Stakes) (c : EvalSettings α) :
    a.relabelled.cubeAction board s.relabelled c = a.cubeAction board s c := by
  simp only [Arena.cubeAction, s.doubled_relabelled, s.isMoney_relabelled, ignores.evaluate,
    met_relabelled, CubeLines.ofEvaluations_relabelled, verdict_relabelled,
    MatchEquity.ifWon_relabelled]
  rfl

variable (t : Trial δ α Board)

theorem cubeTurn : a.relabelled.cubeTurn t.relabelled = a.cubeTurn t := by
  simp only [Arena.cubeTurn, Trial.relabelled, mayDouble_relabelled, settings_relabelled,
    Stakes.onRoll_relabelled, Settings.forCube_relabelled, ignores.cubeAction]

/-- **Every roll is worth the same** to the player who began. -/
theorem rollValue (roll : Dice) : a.relabelled.rollValue t.relabelled roll = a.rollValue t roll := by
  have seen (v : Equities α) : toStart v t.stakes.swapTurn.relabelled (!t.flipped) t.startCube =
      toStart v t.stakes.swapTurn (!t.flipped) t.startCube := rfl
  simp only [Arena.rollValue, Trial.relabelled, settings_relabelled, Stakes.onRoll_relabelled,
    Settings.forPlay_relabelled, Stakes.swapTurn_relabelled, game_relabelled, met_relabelled,
    MatchEquity.outcomeValue_relabelled, ignores.playRoll, ignores.evaluate, seen]
  rfl

theorem rollLuck (roll : Dice) : a.relabelled.rollLuck t.relabelled roll = a.rollLuck t roll := by
  simp only [Arena.rollLuck, ignores.rollValue]
  rfl

variable [LawfulMonad m]

/-- **A roll is played alike.** -/
theorem rollAndPlay :
    a.relabelled.rollAndPlay t.relabelled = Trial.relabelled <$> a.rollAndPlay t := by
  have played (roll : Dice) :
      a.relabelled.playRoll t.relabelled.board t.relabelled.stakes roll
          (a.relabelled.settings.forPlay t.relabelled.stakes.onRoll t.relabelled.ply) =
        a.playRoll t.board t.stakes roll (a.settings.forPlay t.stakes.onRoll t.ply) := by
    simp only [Trial.relabelled, settings_relabelled, Stakes.onRoll_relabelled,
      Settings.forPlay_relabelled, ignores.playRoll]
  have noted : a.relabelled.settings.varianceReduction = a.settings.varianceReduction := rfl
  simp only [Arena.rollAndPlay, played, ignores.rollLuck, noted, map_bind]
  refine bind_congr fun rolled => ?_
  split <;> simp only [map_bind, map_pure] <;> rfl

theorem afterCube (act : CubeTurn α) :
    a.relabelled.afterCube t.relabelled act = Turn.relabelled <$> a.afterCube t act := by
  cases act with
  | unturned =>
    rw [Arena.afterCube, Arena.afterCube, ignores.rollAndPlay, Functor.map_map, Functor.map_map]
    rfl
  | taken =>
    have rolled := ignores.rollAndPlay { t with stakes := t.stakes.doubled }
    rw [Arena.afterCube, Arena.afterCube, Functor.map_map]
    refine (congrArg (Turn.next <$> ·) rolled).trans ?_
    rw [Functor.map_map]
    rfl
  | passed v =>
    rw [Arena.afterCube, Arena.afterCube, map_pure]
    rfl

/-- **A turn is the same under the other names.** -/
theorem turn : a.relabelled.turn t.relabelled = Turn.relabelled <$> a.turn t := by
  have finished (o : Outcome) :
      t.relabelled.result (.ofOutcome o (a.met.outcomeValue t.relabelled.stakes o)) =
        t.result (.ofOutcome o (a.met.outcomeValue t.stakes o)) :=
    congrArg (fun value => t.result (.ofOutcome o value)) (a.met.outcomeValue_relabelled t.stakes o)
  cases running : a.game.outcome? t.board with
  | some o =>
    have running' : a.relabelled.game.outcome? t.relabelled.board = some o := running
    rw [turn_eq_of_finished running, turn_eq_of_finished running', met_relabelled, finished, map_pure]
    rfl
  | none =>
    have running' : a.relabelled.game.outcome? t.relabelled.board = none := running
    cases cut : a.truncates t with
    | true =>
      have cut' : a.relabelled.truncates t.relabelled = true := cut
      have estimate (c : EvalSettings α) :
          a.relabelled.evaluate t.relabelled.board t.relabelled.stakes c =
            a.evaluate t.board t.stakes c := ignores.evaluate ..
      rw [turn_eq_of_cut running cut, turn_eq_of_cut running' cut', estimate, map_bind]
      simp only [map_pure]
      rfl
    | false =>
      have uncut' : a.relabelled.truncates t.relabelled = false := cut
      rw [turn_eq_of_running running cut, turn_eq_of_running running' uncut', map_bind]
      refine bind_congr fun stop => ?_
      split
      · rw [map_pure]
        rfl
      · rw [map_bind, ignores.cubeTurn]
        exact bind_congr fun act => ignores.afterCube t act

/-- **The rest of a trial is the same under the other names**, from every head on. -/
theorem playOn (horizon : Nat) :
    a.relabelled.playOn horizon t.relabelled = a.playOn horizon t := by
  induction horizon generalizing t with
  | zero => rfl
  | succ horizon ih =>
    rw [Arena.playOn, Arena.playOn, ignores.turn, bind_map_left]
    refine bind_congr fun x => ?_
    rcases x with v | _ | t
    · rfl
    · rfl
    · exact ih t

end IgnoresNames

end Arena

/-- **Trials do not depend on who is called zero.**  Let the evaluator not look at the names of the
players.  If these trade names, with the cube, the score and their settings, a trial from any position
asks the same of evaluator and dice, is interrupted and fails alike, and comes to the same result. -/
theorem play_relabelled [Scalar α] [Monad m] [LawfulMonad m] {a : Arena m δ α Board Move}
    (ignores : a.IgnoresNames) (horizon : Nat) (board : Board) (stakes : Stakes) (dice : δ) :
    a.relabelled.play horizon board stakes.relabelled dice = a.play horizon board stakes dice :=
  ignores.playOn (.start board stakes dice) horizon

/-! ### Players who do not look equally deep -/

/-- A game in which a roll takes one off the board, and whoever takes the last off wins a gammon.  Player
one looks at the cube a ply deeper than player zero, and only player zero thinks that an early double is
right. -/
def lopsided : Arena (StateM Unit) Nat Rat Nat Unit where
  game := {
    legalMoves := fun _ _ => [()]
    play := fun left _ => left - 1
    pass := id
    outcome? := fun left => if left = 0 then some ⟨.opponent, .gammon⟩ else none }
  evaluator _ s c :=
    let chance : Rat := if s.isCentered then 101 / 200 else if c.plies = 0 then 103 / 200 else 99 / 200
    pure ((Equities.ofChances (3 / 5) 0 0 0 0).withCubeful chance)
  met := ⟨fun away opponentAway _ => 1 / 2 + ((opponentAway - away : Int) : Rat) / 40⟩
  settings := { Settings.standard with
    cube := ⟨.static, { EvalSettings.static with plies := 1 }⟩
    varianceReduction := true }
  roll drawn := pure (⟨1, 2⟩, drawn + 1)
  interrupted _ := pure false

/-- With the last roll to come the player who begins doubles, and he does so under the other name as well
if his settings go with him; with those of the other player he does not. -/
theorem lopsided_relabelled :
    let stakes : Stakes := .matchPlay 9 ⟨2, 0⟩ .zero
    let gammon (chance : Rat) : Equities Rat := .ofOutcome ⟨.onRoll, .gammon⟩ chance
    Yields (lopsided.play 2 1 stakes 0) () (some (gammon (13 / 20))) () ∧
      Yields (lopsided.relabelled.play 2 1 stakes.relabelled 0) () (some (gammon (13 / 20))) () ∧
      Yields (lopsided.play 2 1 stakes.relabelled 0) () (some (gammon (3 / 5))) () := by
  intro stakes gammon
  have ignores : lopsided.IgnoresNames := fun _ s _ => by
    simp only [lopsided, s.isCentered_relabelled]
  have played : Yields (lopsided.play 2 1 stakes 0) () (some (gammon (13 / 20))) () := by
    decide +kernel
  refine ⟨played, ?_, by decide +kernel⟩
  rw [play_relabelled ignores 2 1 stakes 0]
  exact played

end Rollout

end Backgammon
