import Backgammon.Config.Value

/-!
# Config/Document — what a configuration text says

A configuration assigns contents to paths of keys, one after the other.  Objects merge and everything
else replaces what was there, so the value at a path is decided by the last assignment that bears on
it.

* `Path.ofName` — the path that a name with points in it stands for.
* `Document` — a list of assignments in the order of the text.
* `Document.lookup` — the value at a path.
-/

namespace Backgammon.Config

/-- A path of keys, outermost first. -/
abbrev Path : Type := List String

/-- **The path a name stands for**: its parts between points. -/
def Path.ofName (name : String) : Path := (name.toList.splitOn '.').map String.ofList

example : Path.ofName "player_0.cube_plies" = ["player_0", "cube_plies"] := by decide

/-- **What can be assigned.** -/
inductive Content where
  | value (v : Value)
  /-- An object; what it holds is assigned by itself. -/
  | object
  /-- Something that is no value: an array, or nothing. -/
  | other

/-- One assignment. -/
structure Assignment where
  path : Path
  content : Content

/-- **A configuration.** -/
abbrev Document : Type := List Assignment

/-- The value that a content is. -/
def Content.value? : Content → Option Value
  | value v => some v
  | _ => none

/-- **What is at `path` after an assignment.**  At the path itself it is what was assigned; below an
object it is what it was, and below anything else nothing; above the assignment it is an object, which
is no value. -/
def Assignment.bearOn (path : Path) (before : Option Value) (a : Assignment) : Option Value :=
  if a.path = path then a.content.value?
  else if a.path.isPrefixOf path then
    match a.content with
    | .object => before
    | _ => none
  else if path.isPrefixOf a.path then none
  else before

/-- **The value at a path.** -/
def Document.lookup (d : Document) (path : Path) : Option Value :=
  d.foldl (Assignment.bearOn path) none

theorem Document.lookup_append_singleton (d : Document) (a : Assignment) (path : Path) :
    Document.lookup (d ++ [a]) path = a.bearOn path (d.lookup path) := by
  simp [lookup]

end Backgammon.Config
