import Backgammon.Config.Document.Reading
import Backgammon.SettingError

/-!
# Config/Source — where settings come from

* `Source` — a configuration with a scope and the environment; `Source.get` looks a name up in the
  environment, then within the scope, then at the root.
* `LoadError` — why settings cannot be had; `LoadError.message` words it.
* `Source.ofText`, `Source.ofFile` — the source for a text, and for a file that may be missing.
-/

namespace Backgammon.Config

/-- Names and texts of the environment. -/
abbrev Environment : Type := List (String × String)

/-- **Why settings cannot be had.** -/
inductive LoadError where
  | missingFile (path : String)
  | malformed
  /-- A name in the environment that must hold a number does not. -/
  | notANumber (name : String)
  | setting (error : SettingError Float)

/-- A text in quotes, with quotes and backslashes escaped. -/
def inQuotes (s : String) : String :=
  let escape (c : Char) : List Char := if c == '"' || c == '\\' then ['\\', c] else [c]
  String.ofList ('"' :: s.toList.flatMap escape ++ ['"'])

/-- The error in words. -/
def LoadError.message : LoadError → String
  | missingFile path => "The config file " ++ inQuotes path ++ " was not found"
  | malformed => "Failed to parse config"
  | notANumber name => name ++ " must be a valid number"
  | setting e => e.message

/-- **Where settings come from.** -/
structure Source where
  document : Document
  environment : Environment
  /-- The key of the object that is searched first. -/
  scope : String

namespace Source

/-- **Looks a name up** in the environment, then within the scope, then at the root.  A name with
points is a path. -/
def get (src : Source) (name : String) : Option Value :=
  match src.environment.lookup name with
  | some s => some (.text s)
  | none =>
    let path := Path.ofName name
    (src.document.lookup (src.scope :: path)).or (src.document.lookup path)

/-- The source for a configuration text. -/
def ofText (text : String) (environment : Environment) (scope : String) :
    Except LoadError Source :=
  match Document.read? text with
  | some document => .ok { document, environment, scope }
  | none => .error .malformed

/-- The source for a file of which the text is given if it exists. -/
def ofFile (path : String) (text : Option String) (environment : Environment) (scope : String) :
    Except LoadError Source :=
  match text with
  | some text => ofText text environment scope
  | none => .error (.missingFile path)

/-- A truth value, or the default when the name has none. -/
def bool (src : Source) (name : String) (default : Bool) : Bool :=
  ((src.get name).bind Value.asBool).getD default

/-- A natural number, or the default when the name has none. -/
def natural (src : Source) (name : String) (default : Nat) : Nat :=
  ((src.get name).bind Value.asNatural).getD default

/-- A real number, or the default when the name has none. -/
def real (src : Source) (name : String) (default : Float) : Float :=
  ((src.get name).bind Value.asReal).getD default

end Source

/-- A natural number from the environment alone: nothing when the name is not there. -/
def Environment.natural? (env : Environment) (name : String) : Except LoadError (Option Nat) :=
  match env.lookup name with
  | none => .ok none
  | some s =>
    match Decimal.natural? Decimal.wordLimit s with
    | some n => .ok (some n)
    | none => .error (.notANumber name)

/-- Settings that have been read are returned if they are allowed. -/
def checked {β : Type} (settings : β) (check : Except (SettingError Float) Unit) :
    Except LoadError β :=
  match check with
  | .ok () => .ok settings
  | .error e => .error (.setting e)

end Backgammon.Config
