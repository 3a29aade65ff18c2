import Backgammon.Proofs.Analysis.Totals

/-!
# Proofs/Analysis/Merging — games merged, and a match recorded in one go

    xs ++ ys ──addAll──▸ t ◂──merge── (addAll xs, addAll ys)

A record that is no result only adds to counters and sums, so it may as well be counted in the second
of two parts.  A result takes the luck of its game off, so it may be counted there too as long as the
first part has left no luck over.

* `add_merge` — a record counted after a merge is counted in the second part.
* `addAll_perm` — the records of one game may come in any order.
* `LuckClosed` — every luck record is followed by a result; `openLuck_addAll` — no luck is left over.
* `addAll_append_eq_merge` — recording two parts in one go is merging them.
-/

namespace Backgammon

/-! ## One more, counted in the second part -/

section

variable {β : Type}

theorem PerPlayer.update_add [Add β] {f : β → β} (h : ∀ a b, f (a + b) = a + f b)
    (x y : PerPlayer β) (p : Player) : (x + y).update p f = x + y.update p f := by
  cases p with
  | zero => exact congrArg (PerPlayer.mk · _) (h x.zero y.zero)
  | one => exact congrArg (PerPlayer.mk _) (h x.one y.one)

/-- An amount more for one of the players. -/
theorem PerPlayer.update_add_right [AddSemigroup β] (x y : PerPlayer β) (p : Player) (a : β) :
    (x + y).update p (· + a) = x + y.update p (· + a) :=
  update_add (fun _ _ => add_assoc ..) x y p

end

namespace Analysis

theorem SkillCounts.count_add (s : Skill) (a b : SkillCounts) :
    (a + b).count s = a + b.count s := by
  refine ext_get ?_
  intro t
  rw [get_count, get_add, get_add, get_count, Nat.add_assoc]

theorem LuckCounts.count_add (l : Luck) (a b : LuckCounts) :
    (a + b).count l = a + b.count l := by
  refine ext_get ?_
  intro t
  rw [get_count, get_add, get_add, get_count, Nat.add_assoc]

theorem CubeErrors.count_add (kind : CubeErrorKind) (cost : Amount Rat) (a b : CubeErrors Rat) :
    (a + b).count kind cost = a + b.count kind cost := by
  ext1 k
  rw [get_count, get_add, get_add, get_count]
  split
  · exact add_assoc ..
  · rfl

theorem ResultSummary.push_add (a b : ResultSummary Rat) (x : Rat) :
    (a + b).push x = a + b.push x :=
  ResultSummary.ext (add_assoc ..) (add_assoc ..) (add_assoc ..)

/-- The record closes a game. -/
def Record.isResult {α : Type} : Record α → Bool
  | .result .. => true
  | _ => false

/-- The record tells the luck of a roll. -/
def Record.isLuck {α : Type} : Record α → Bool
  | .luck .. => true
  | _ => false

namespace Statistics

variable (ctx : Context Rat) (t u : Statistics Rat)

theorem addPlay_merge (s : Stakes) (p : Player) (loss : Option Rat) (legal : Nat) :
    (t.merge u).addPlay ctx s p loss legal = t.merge (u.addPlay ctx s p loss legal) := by
  have moves (x y : PerPlayer Nat) := PerPlayer.update_add_right x y p 1
  have skills (k : Skill) (x y : PerPlayer SkillCounts) :=
    PerPlayer.update_add (f := (·.count k)) (SkillCounts.count_add k) x y p
  have errors (a : Amount Rat) (x y : PerPlayer (Amount Rat)) := PerPlayer.update_add_right x y p a
  rw [addPlay, addPlay]
  cases ctx.playLoss? loss with
  | none => simp only [merge, moves, skills]
  | some loss =>
    by_cases choice : 1 < legal
    · simp only [merge, choice, moves, skills, errors, Bool.or_true, if_true]
    · simp only [merge, choice, moves, skills, Bool.or_true, if_false]

theorem addCube_merge (s : Stakes) (p : Player) (c : CubeLines Rat) (action : CubeAction) :
    (t.merge u).addCube ctx s p c action = t.merge (u.addCube ctx s p c action) := by
  have moves (x y : PerPlayer Nat) := PerPlayer.update_add_right x y p 1
  have one (P : Prop) [Decidable P] (x y z : PerPlayer Nat) :
      (if P then x + y else x + z) = x + if P then y else z := (add_ite P x y z).symm
  have errors (kind : CubeErrorKind) (cost : Amount Rat) (x y : PerPlayer (CubeErrors Rat)) :=
    PerPlayer.update_add (f := (·.count kind cost)) (CubeErrors.count_add kind cost) x y p
  rw [addCube, addCube]
  cases ctx.countedVerdict? s c action with
  | none => rfl
  | some v =>
    dsimp only
    cases ctx.mistakeFor c v action with
    | none => simp only [merge, one, moves, Bool.or_true, if_true]
    | some e => simp only [merge, one, moves, errors, Bool.or_true, if_true]

theorem addLuck_merge (s : Stakes) (p : Player) (amount : Rat) :
    (t.merge u).addLuck ctx s p amount = t.merge (u.addLuck ctx s p amount) := by
  have rolls (l : Luck) (x y : PerPlayer LuckCounts) :=
    PerPlayer.update_add (f := (·.count l)) (LuckCounts.count_add l) x y p
  have amounts (a : Amount Rat) (x y : PerPlayer (Amount Rat)) := PerPlayer.update_add_right x y p a
  have chances (a : Rat) (x y : PerPlayer Rat) := PerPlayer.update_add_right x y p a
  rw [addLuck, addLuck]
  split
  · simp only [merge, rolls, amounts, chances, Bool.or_true]
  · rfl

/-- A result takes the luck of its game off, all of which must be in the second part. -/
theorem addResult_merge (h : t.openLuck = 0) (s : Stakes) (winner : Player) (points : Nat) :
    (t.merge u).addResult ctx s winner points = t.merge (u.addResult ctx s winner points) := by
  have luck (q : Player) : (t.openLuck + u.openLuck).get q = u.openLuck.get q := by
    rw [h, zero_add]
  have results (f : Player → Rat) (x y : PerPlayer (ResultSummary Rat)) :
      (PerPlayer.ofFn fun q => ((x + y).get q).push (f q)) =
        x + .ofFn fun q => (y.get q).push (f q) := by
    ext1 q
    rw [PerPlayer.get_ofFn, PerPlayer.get_add, PerPlayer.get_add, PerPlayer.get_ofFn,
      ResultSummary.push_add]
  simp only [addResult, merge, luck, results, Nat.add_assoc]
  congr 1
  rw [h]
  exact (zero_add _).symm

/-- **A record counted after a merge is counted in the second part**, if the first has left no luck
over for a result to take off. -/
theorem add_merge (r : Record Rat) (h : r.isResult = true → t.openLuck = 0) :
    (t.merge u).add ctx r = t.merge (u.add ctx r) := by
  cases r with
  | play s p loss legal => exact addPlay_merge ctx t u s p loss legal
  | cube s p c action => exact addCube_merge ctx t u s p c action
  | luck s p amount => exact addLuck_merge ctx t u s p amount
  | result s winner points => exact addResult_merge ctx t u (h rfl) s winner points

/-- **Records counted after a merge are counted in the second part.** -/
theorem addAll_merge (h : t.openLuck = 0) (records : List (Record Rat)) :
    (t.merge u).addAll ctx records = t.merge (u.addAll ctx records) := by
  induction records generalizing u with
  | nil => rfl
  | cons r records ih =>
    calc
      (t.merge u).addAll ctx (r :: records) = ((t.merge u).add ctx r).addAll ctx records := rfl
      _ = (t.merge (u.add ctx r)).addAll ctx records := by rw [add_merge ctx t u r fun _ => h]
      _ = t.merge (u.addAll ctx (r :: records)) := ih (u.add ctx r)

/-! ## Luck that is left over -/

theorem openLuck_addPlay (s : Stakes) (p : Player) (loss : Option Rat) (legal : Nat) :
    (t.addPlay ctx s p loss legal).openLuck = t.openLuck := by
  rw [addPlay]
  split
  · rfl
  · dsimp only
    split <;> rfl

theorem openLuck_addCube (s : Stakes) (p : Player) (c : CubeLines Rat) (action : CubeAction) :
    (t.addCube ctx s p c action).openLuck = t.openLuck := by
  rw [addCube]
  split
  · rfl
  · dsimp only
    split <;> rfl

/-- **Every luck record is followed by a result.** -/
def LuckClosed (records : List (Record Rat)) : Prop :=
  ∀ (r : Record Rat) (later : List (Record Rat)), r.isLuck = true → r :: later <:+ records →
    ∃ r' ∈ later, r'.isResult = true

/-- **No luck is left over** once every luck record has been followed by a result. -/
theorem openLuck_addAll {records : List (Record Rat)} (closed : LuckClosed records)
    (h : t.openLuck = 0 ∨ ∃ r ∈ records, r.isResult = true) :
    (t.addAll ctx records).openLuck = 0 := by
  induction records generalizing t with
  | nil => exact h.resolve_right (by simp)
  | cons r records ih =>
    have rest : LuckClosed records := fun r' later luck behind =>
      closed r' later luck (behind.trans (List.suffix_cons r records))
    have passed (same : (t.add ctx r).openLuck = t.openLuck) (other : r.isResult = false) :
        (t.add ctx r).openLuck = 0 ∨ ∃ r ∈ records, r.isResult = true := by
      refine h.imp same.trans ?_
      rintro ⟨r', mem, result⟩
      rcases List.mem_cons.1 mem with rfl | mem
      · rw [other] at result
        exact nomatch result
      · exact ⟨r', mem, result⟩
    refine ih (t.add ctx r) rest ?_
    cases r with
    | play s p loss legal => exact passed (openLuck_addPlay ctx t s p loss legal) rfl
    | cube s p c action => exact passed (openLuck_addCube ctx t s p c action) rfl
    | luck s p amount => exact .inr (closed _ records rfl (List.suffix_refl _))
    | result s winner points => exact .inl rfl

/-! ## The records of one game -/

/-- A record that is no result adds what it adds to nothing. -/
theorem add_eq_merge {r : Record Rat} (h : r.isResult = false) :
    t.add ctx r = t.merge (empty.add ctx r) := by
  conv_lhs => rw [← merge_empty t]
  exact add_merge ctx t empty r fun result => absurd (h.symm.trans result) (by decide)

theorem add_right_comm {r r' : Record Rat} (h : r.isResult = false) (h' : r'.isResult = false) :
    (t.add ctx r).add ctx r' = (t.add ctx r').add ctx r := by
  rw [add_eq_merge ctx (t.add ctx r) h', add_eq_merge ctx (t.add ctx r') h, add_eq_merge ctx t h,
    add_eq_merge ctx t h', merge_assoc, merge_assoc, merge_comm (empty.add ctx r)]

/-- **The records of one game may come in any order.** -/
theorem addAll_perm {game game' : List (Record Rat)} (h : ∀ r ∈ game, r.isResult = false)
    (perm : game.Perm game') : t.addAll ctx game = t.addAll ctx game' :=
  perm.foldl_eq' (fun r hr r' hr' t => add_right_comm ctx t (h r hr) (h r' hr')) t

/-! ## Two parts of a match -/

omit t u in
/-- **Recording two parts in one go is merging them**, when the first leaves no luck over.  Within a
game the order of the records does not matter. -/
theorem addAll_append_eq_merge :
    (∀ xs ys, LuckClosed xs →
      addAll empty ctx (xs ++ ys) = (addAll empty ctx xs).merge (addAll empty ctx ys)) ∧
    ∀ before game game' later, (∀ r ∈ game, Record.isResult r = false) → game.Perm game' →
      addAll empty ctx (before ++ game ++ later) = addAll empty ctx (before ++ game' ++ later) := by
  constructor
  · intro xs ys closed
    have none_left := openLuck_addAll ctx empty closed (.inl rfl)
    calc
      addAll empty ctx (xs ++ ys) = (addAll empty ctx xs).addAll ctx ys := List.foldl_append
      _ = ((addAll empty ctx xs).merge empty).addAll ctx ys := by rw [merge_empty]
      _ = (addAll empty ctx xs).merge (addAll empty ctx ys) := addAll_merge ctx _ _ none_left ys
  · intro before game game' later no_result perm
    have split (middle : List (Record Rat)) : addAll empty ctx (before ++ middle ++ later) =
        ((addAll empty ctx before).addAll ctx middle).addAll ctx later := by
      simp only [addAll, List.foldl_append]
    rw [split, split, addAll_perm ctx _ no_result perm]

/-- A game with luck, and the start of the next one. -/
theorem money_game_append_eq_merge :
    let ctx : Context Rat := ⟨.standard, ⟨fun _ _ _ => 1 / 2⟩⟩
    let luck := Record.luck (.money .zero) .zero (1 / 2 : Rat)
    let play := Record.play (.money .zero) .zero (some (1 / 20 : Rat)) 3
    let result : Record Rat := .result (.money .zero) .one 2
    addAll empty ctx ([luck, result] ++ [luck]) =
        (addAll empty ctx [luck, result]).merge (addAll empty ctx [luck]) ∧
      addAll empty ctx ([result] ++ [luck, play] ++ [result]) =
        addAll empty ctx ([result] ++ [play, luck] ++ [result]) := by
  intro ctx luck play result
  have closed : LuckClosed [luck, result] := by
    intro r later is_luck behind
    rcases List.suffix_cons_iff.1 behind with same | behind
    · obtain ⟨-, rfl⟩ := List.cons.inj same
      exact ⟨result, List.mem_singleton_self result, rfl⟩
    · rcases List.suffix_cons_iff.1 behind with same | behind
      · obtain ⟨rfl, -⟩ := List.cons.inj same
        exact nomatch is_luck
      · exact nomatch List.suffix_nil.1 behind
  have no_result : ∀ r ∈ [luck, play], Record.isResult r = false := by
    simp [luck, play, Record.isResult]
  have both := addAll_append_eq_merge ctx
  exact ⟨both.1 _ _ closed, both.2 _ _ _ _ no_result (.swap play luck [])⟩

end Statistics

end Analysis

end Backgammon
