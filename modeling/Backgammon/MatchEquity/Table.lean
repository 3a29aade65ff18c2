import Backgammon.History
import Backgammon.MatchEquity
import Backgammon.SettingError

/-!
# MatchEquity/Table — match equity tables

A table for matches up to `len` points holds the chances before the end of the Crawford game and,
apart, those of a leader one point away after it.  Scores further away than the table is long are
read at its edge.

* `MatchTable.ofRows` — a table from given numbers, which must be chances and fill a square.
* `MatchTable.generated` — the table of even games, a given fraction of them gammons, in which the
  trailer turns the cube in every game after the Crawford game.
* `MatchTable.matchEquity` — the table read at any score.
-/

namespace Backgammon

/-- **A match equity table.**  Row `i`, column `j` of `pre` is the chance of a player `i + 1` away
against one `j + 1` away up to the Crawford game, and `post[j]` that of a leader one away against a
trailer `j + 1` away after it. -/
structure MatchTable (α : Type) where
  len : Nat
  len_pos : 0 < len
  pre : Vector (Vector α len) len
  post : Vector α len

namespace MatchTable

variable {α : Type} [Scalar α]

/-- The index of a positive number of points away, at the edge when the table is shorter. -/
def place (t : MatchTable α) (away : Int) : Fin t.len :=
  ⟨min away.toNat t.len - 1, by have := t.len_pos; omega⟩

/-- **The table read at any score.** -/
def matchEquity (t : MatchTable α) : MatchEquity α where
  chance away opponentAway postCrawford :=
    if away ≤ 0 then 1
    else if opponentAway ≤ 0 then 0
    else if postCrawford && away == 1 then t.post[t.place opponentAway]
    else if postCrawford && opponentAway == 1 then 1 - t.post[t.place away]
    else t.pre[t.place away][t.place opponentAway]

/-- A table filled entry by entry. -/
def ofFn (len : Nat) (h : 0 < len) (pre : Nat → Nat → α) (post : Nat → α) : MatchTable α where
  len := len
  len_pos := h
  pre := .ofFn fun i => .ofFn fun j => pre i j
  post := .ofFn fun j => post j

/-- **A table from its numbers**: as many rows, columns and post-Crawford entries as one another, and
chances all of them. -/
def ofRows (pre : List (List α)) (post : List α) : Except (SettingError α) (MatchTable α) := do
  let setting := "match_equity"
  let len := pre.length
  if h : 0 < len then
    if pre.any (fun row => row.length != len) || post.length != len then
      throw (.invalid setting (.tableShape len))
    (pre.flatten ++ post).forM fun x => checkRange setting x 0 1
    let rows := (pre.map List.toArray).toArray
    let last := post.toArray
    return ofFn len h (fun i j => ((rows.getD i #[]).getD j 0)) (fun j => last.getD j 0)
  else throw (.invalid setting .emptyTable)

/-! ## The table of even games -/

/-- The trailer's chance after the Crawford game, from those of trailers nearer home (the latest
first): the trailer turns the cube, and half the games are won, a fraction `g` of them as gammons.
A trailer with no points to go has won. -/
def nextTrailer (g : α) (nearer : List α) : α :=
  1 / 2 * ((1 - g) * nearer[1]?.getD 1 + g * nearer[3]?.getD 1)

/-- The leader's chance after the Crawford game against a trailer `b` away, for each `b` up to `len`;
none against a trailer who is home. -/
def leaders (g : α) (len : Nat) : Array α :=
  (0 :: (history (nextTrailer g) len).reverse.map (1 - ·)).toArray

/-- **The next entry of a row** of the table up to the Crawford game, from the finished rows above
(the latest first) and the entries to its left (the latest first).  One away against one away is
even; with one player one away it is the Crawford game, without the cube; and before it half the
games are won and half lost, a fraction `g` of either as gammons. -/
def nextEntry (g : α) (leader : Nat → α) (above : List (Array α)) (left : List α) : α :=
  let a := above.length + 1
  let b := left.length + 1
  if a = 1 then
    if b = 1 then 1 / 2
    else 1 / 2 + 1 / 2 * ((1 - g) * leader (b - 1) + g * leader (b - 2))
  else if b = 1 then
    1 / 2 * ((1 - g) * (1 - leader (a - 1)) + g * (1 - leader (a - 2)))
  else
    let won (k : Nat) : α := (above[k]?.map fun row => row.getD (b - 1) 0).getD 1
    let lost (k : Nat) : α := left[k]?.getD 0
    1 / 2 * (1 - g) * (won 0 + lost 0) + 1 / 2 * g * (won 1 + lost 1)

/-- The next row of the table up to the Crawford game. -/
def nextRow (g : α) (leader : Nat → α) (len : Nat) (above : List (Array α)) : Array α :=
  (history (nextEntry g leader above) len).reverse.toArray

/-- **The table of even games** with a fraction `g` of gammons. -/
def generated (len : Nat) (g : α) : Except (SettingError α) (MatchTable α) := do
  if h : 0 < len then
    checkRange "gammon_rate" g 0 1
    let leader := leaders g len
    let rows := (history (nextRow g (leader.getD · 0) len) len).reverse.toArray
    return ofFn len h (fun i j => (rows.getD i #[]).getD j 0) (fun j => leader.getD (j + 1) 0)
  else throw (.invalid "match_length" .notPositive)

end MatchTable

end Backgammon
