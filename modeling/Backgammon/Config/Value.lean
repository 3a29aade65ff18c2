import Backgammon.Decimal.Reading
import Backgammon.Decimal.Shortest

/-!
# Config/Value — a configured value and what it can be taken for

* `Value` — text, integer, real number or truth value.
* `Value.asBool`, `Value.asNatural`, `Value.asReal`, `Value.asText` — the readings of a value; a value
  that does not convert has none.
-/

namespace Backgammon.Config

/-- **A configured value.** -/
inductive Value where
  | text (s : String)
  | integer (n : Int)
  | real (x : Float)
  | boolean (b : Bool)

namespace Value

/-- The words for the truth values. -/
def boolWord? : String → Option Bool
  | "true" | "yes" | "on" => some true
  | "false" | "no" | "off" => some false
  | _ => none

/-- A truth value, or one of the words for it. -/
def asBool : Value → Option Bool
  | boolean b => some b
  | text s => boolWord? s
  | _ => none

/-- **A number of things**: an integer from zero up, or the text of one. -/
def asNatural : Value → Option Nat
  | integer n => if 0 ≤ n then some n.toNat else none
  | text s => Decimal.natural? Decimal.wordLimit s
  | _ => none

/-- A number of any kind, or the text of one. -/
def asReal : Value → Option Float
  | real x => some x
  | integer n => some (Float.ofInt n)
  | text s => Decimal.real? s
  | boolean _ => none

/-- The text of a value. -/
def asText : Value → String
  | text s => s
  | boolean true => "true"
  | boolean false => "false"
  | real x => Decimal.text x
  | integer n => toString n

end Value

end Backgammon.Config
