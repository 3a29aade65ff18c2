import Backgammon.MatchEquity.Table
import Backgammon.Proofs.Checks
import Mathlib.Algebra.Order.Ring.Rat

/-!
# Proofs/MatchEquity/Lookup — a match equity table has an answer for every score

    score ──index?──▸ rows and columns ──read?──▸ chance

A table is read at scores of every kind: of matches longer than the table, of players who are home, of
games after the Crawford game.

* `read?` — reading plain rows, where an index outside them would be no answer.
* `read?_rows` — the rows of a table answer at every score, and with what `matchEquity` gives.
* `rows_of_ofRows` — a table that is accepted holds the given rows, and chances only.
* `HoldsChances.chance_mem` — read from chances, every answer is one.
-/

namespace Backgammon.MatchTable

/-! ## Reading rows -/

/-- The index for so many points away in a table of a length, at its edge when the table is shorter;
none when there are no points to go. -/
def index? (len : Nat) (away : Int) : Option Nat :=
  let place := min away.toNat len
  if place = 0 then none else some (place - 1)

variable {α : Type}

/-- The rows of a table, the first one that of a player one away. -/
def rows (t : MatchTable α) : List (List α) := t.pre.toList.map Vector.toList

@[simp] theorem length_rows (t : MatchTable α) : t.rows.length = t.len := by simp [rows]

theorem getElem?_rows (t : MatchTable α) (i : Fin t.len) :
    t.rows[i.val]? = some t.pre[i].toList := by simp [rows]

theorem index?_eq_place (t : MatchTable α) {away : Int} (pos : 0 < away) :
    index? t.len away = some (t.place away).val := by
  have := t.len_pos
  have inside : min away.toNat t.len ≠ 0 := by omega
  exact if_neg inside

/-- The index at which a number of points to go is read. -/
theorem val_place (t : MatchTable α) {away : Nat} (toGo : 0 < away) :
    (t.place away).val + 1 = min away t.len := by
  have := t.len_pos
  simp only [place, Int.toNat_natCast]
  omega

section

variable [Scalar α]

/-- **Reading plain rows at a score.**  There is no answer where an index is not one of a row or of an
entry. -/
def read? (pre : List (List α)) (post : List α) (away opponentAway : Int) (postCrawford : Bool) :
    Option α :=
  let index := index? pre.length
  if away ≤ 0 then some 1
  else if opponentAway ≤ 0 then some 0
  else if postCrawford && away == 1 then do post[← index opponentAway]?
  else if postCrawford && opponentAway == 1 then do return 1 - (← post[← index away]?)
  else do (← pre[← index away]?)[← index opponentAway]?

/-- **Every score has its entry**: reading the rows of a table always gives an answer, and it is the
chance at that score. -/
theorem read?_rows (t : MatchTable α) (away opponentAway : Int) (postCrawford : Bool) :
    read? t.rows t.post.toList away opponentAway postCrawford =
      some (t.matchEquity.chance away opponentAway postCrawford) := by
  simp only [read?, matchEquity, length_rows]
  split
  · rfl
  next toGo =>
  split
  · rfl
  next opponentToGo =>
  rw [t.index?_eq_place (not_le.1 toGo), t.index?_eq_place (not_le.1 opponentToGo)]
  simp only [Option.bind_eq_bind, Option.bind_some, getElem?_rows]
  split
  · simp
  · split <;> simp

/-! ## The readings of a table -/

section

variable (t : MatchTable α)

/-- The chance at a score, both players' points to go counted by natural numbers. -/
def chanceAt (away opponentAway : Nat) (postCrawford : Bool) : α :=
  t.matchEquity.chance away opponentAway postCrawford

/-- Once no points are to go, it does not matter how few. -/
theorem chance_eq_chanceAt (away opponentAway : Int) (postCrawford : Bool) :
    t.matchEquity.chance away opponentAway postCrawford =
      t.chanceAt away.toNat opponentAway.toNat postCrawford := by
  simp only [chanceAt, matchEquity]
  by_cases home : away ≤ 0
  · rw [if_pos home, if_pos (by omega)]
  rw [Int.toNat_of_nonneg (by omega : 0 ≤ away), if_neg home, if_neg home]
  by_cases opponentHome : opponentAway ≤ 0
  · rw [if_pos opponentHome, if_pos (by omega)]
  · rw [Int.toNat_of_nonneg (by omega : 0 ≤ opponentAway)]

variable {a b : Nat}

@[simp] theorem chanceAt_zero (b : Nat) (postCrawford : Bool) : t.chanceAt 0 b postCrawford = 1 := rfl

theorem chanceAt_zero_right (toGo : 1 ≤ a) (postCrawford : Bool) :
    t.chanceAt a 0 postCrawford = 0 := by
  have toGo : ¬ (a : Int) ≤ 0 := by omega
  exact (if_neg toGo).trans (if_pos le_rfl)

theorem chanceAt_pre (toGo : 1 ≤ a) (opponentToGo : 1 ≤ b) :
    t.chanceAt a b false = t.pre[t.place a][t.place b] := by
  have : a ≠ 0 := by omega
  have : b ≠ 0 := by omega
  simp [chanceAt, matchEquity, *]

theorem chanceAt_leader (opponentToGo : 1 ≤ b) : t.chanceAt 1 b true = t.post[t.place b] := by
  have : b ≠ 0 := by omega
  simp [chanceAt, matchEquity, *]

theorem chanceAt_trailer (far : 2 ≤ a) : t.chanceAt a 1 true = 1 - t.post[t.place a] := by
  have : a ≠ 0 := by omega
  have : (a : Int) ≠ 1 := by omega
  simp [chanceAt, matchEquity, *]

/-- With neither player one away the Crawford game makes no difference. -/
theorem chanceAt_of_far (far : a ≠ 1) (opponentFar : b ≠ 1) (postCrawford : Bool) :
    t.chanceAt a b postCrawford = t.chanceAt a b false := by
  have : (a : Int) ≠ 1 := by omega
  have : (b : Int) ≠ 1 := by omega
  simp [chanceAt, matchEquity, *]

end

end

/-! ## Tables of given numbers -/

section

variable {len : Nat} {h : 0 < len} {pre : Nat → Nat → α} {post : Nat → α}

@[simp] theorem len_ofFn : (ofFn len h pre post).len = len := rfl

theorem pre_ofFn (i j : Fin len) : (ofFn len h pre post).pre[i][j] = pre i j :=
  (congrArg (fun row : Vector α len => row[j]) (Vector.getElem_ofFn i.2)).trans
    (Vector.getElem_ofFn j.2)

theorem post_ofFn (j : Fin len) : (ofFn len h pre post).post[j] = post j :=
  Vector.getElem_ofFn j.2

theorem toList_post_ofFn : (ofFn len h pre post).post.toList = (List.range len).map post := by
  refine List.ext_getElem (by simp [ofFn]) fun i _ _ => ?_
  simp [ofFn]

theorem rows_ofFn :
    (ofFn len h pre post).rows = (List.range len).map fun i => (List.range len).map (pre i) := by
  refine List.ext_getElem (by simp) fun i _ _ => List.ext_getElem (by simp [rows, ofFn]) fun j _ _ => ?_
  simp [rows, ofFn]

end

/-- A list read entry by entry. -/
theorem map_getD_range {β : Type} (l : List β) (d : β) :
    (List.range l.length).map (fun i => l.toArray.getD i d) = l := by
  refine List.ext_getElem (by simp) fun i _ inside => ?_
  simp [inside]

/-- A square of rows read entry by entry. -/
theorem map_map_getD_range {β : Type} {rows : List (List β)}
    (square : ∀ row ∈ rows, row.length = rows.length) (d : β) :
    (List.range rows.length).map (fun i => (List.range rows.length).map fun j =>
      ((rows.map List.toArray).toArray.getD i #[]).getD j d) = rows := by
  refine List.ext_getElem (by simp) fun i _ inside => ?_
  have width := square _ (List.getElem_mem inside)
  have row : (rows.map List.toArray).toArray.getD i #[] = rows[i].toArray := by simp [inside]
  rw [List.getElem_map, List.getElem_range, row, ← width, map_getD_range]

/-- The entries of a table are chances. -/
def HoldsChances (t : MatchTable Rat) : Prop :=
  ∀ x ∈ t.rows.flatten ++ t.post.toList, 0 ≤ x ∧ x ≤ 1

/-- **A table that is accepted holds the given rows**, and chances only. -/
theorem rows_of_ofRows {pre : List (List Rat)} {post : List Rat} {t : MatchTable Rat}
    (accepted : ofRows pre post = .ok t) :
    t.rows = pre ∧ t.post.toList = post ∧ t.HoldsChances := by
  rw [ofRows] at accepted
  dsimp only at accepted
  split at accepted
  next nonempty =>
    obtain ⟨square, accepted⟩ := passed_of_guard accepted
    obtain ⟨inRange, accepted⟩ := passed_of_bind accepted
    have made := Except.ok.inj accepted
    obtain ⟨widths, height⟩ := Bool.or_eq_false_iff.1 square
    have width (row : List Rat) (mem : row ∈ pre) : row.length = pre.length := by
      simpa using List.any_eq_false.1 widths row mem
    have height : post.length = pre.length := by simpa using height
    have entry (x : Rat) (mem : x ∈ pre.flatten ++ post) : 0 ≤ x ∧ x ≤ 1 := by
      obtain ⟨-, lower, upper⟩ := isNumber_of_checkRange (passed_of_forM inRange x mem)
      exact ⟨not_lt.1 lower, not_lt.1 upper⟩
    have rows_eq : t.rows = pre := by
      rw [← made, rows_ofFn]
      exact map_map_getD_range width 0
    have post_eq : t.post.toList = post := by
      rw [← made, toList_post_ofFn, ← height]
      exact map_getD_range post 0
    exact ⟨rows_eq, post_eq, fun x mem => entry x (by rwa [rows_eq, post_eq] at mem)⟩
  · exact nomatch accepted

namespace HoldsChances

variable {t : MatchTable Rat}

theorem pre_mem (holds : t.HoldsChances) (i j : Fin t.len) : 0 ≤ t.pre[i][j] ∧ t.pre[i][j] ≤ 1 := by
  have row : t.pre[i].toList ∈ t.rows :=
    List.mem_map_of_mem (Vector.mem_toList_iff.2 (Vector.getElem_mem _))
  have entry : t.pre[i][j] ∈ t.pre[i].toList := Vector.mem_toList_iff.2 (Vector.getElem_mem _)
  exact holds _ (List.mem_append_left _ (List.mem_flatten.2 ⟨_, row, entry⟩))

theorem post_mem (holds : t.HoldsChances) (i : Fin t.len) : 0 ≤ t.post[i] ∧ t.post[i] ≤ 1 :=
  holds _ (List.mem_append_right _ (Vector.mem_toList_iff.2 (Vector.getElem_mem _)))

/-- **An answer read from chances is a chance.** -/
theorem chance_mem (holds : t.HoldsChances) (away opponentAway : Int) (postCrawford : Bool) :
    0 ≤ t.matchEquity.chance away opponentAway postCrawford ∧
      t.matchEquity.chance away opponentAway postCrawford ≤ 1 := by
  simp only [matchEquity]
  split
  · exact ⟨zero_le_one, le_refl (1 : Rat)⟩
  split
  · exact ⟨le_refl (0 : Rat), zero_le_one⟩
  split
  · exact holds.post_mem _
  split
  · obtain ⟨lower, upper⟩ := holds.post_mem (t.place away)
    exact ⟨sub_nonneg.2 upper, sub_le_self 1 lower⟩
  · exact holds.pre_mem _ _

end HoldsChances

end Backgammon.MatchTable
