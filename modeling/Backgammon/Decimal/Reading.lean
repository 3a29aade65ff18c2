/-!
# Decimal/Reading — reading numbers from text

* `natural?` — an unsigned whole number below a limit: digits with at most a plus sign.
* `Scanned` — a decimal as sign, digits and power of ten; `scan?` reads it off a whole text.
* `real?` — a double, correctly rounded; words for infinity and for no number are read too.
-/

namespace Backgammon.Decimal

/-- Splits a sign off; the flag tells a minus sign. -/
def takeSign : List Char → Bool × List Char
  | '-' :: cs => (true, cs)
  | '+' :: cs => (false, cs)
  | cs => (false, cs)

/-- The value of a run of digits. -/
def digitsValue (ds : List Char) : Nat := Nat.ofDigitChars 10 ds 0

/-- A nonempty run of digits and nothing else. -/
def isDigits (cs : List Char) : Bool := !cs.isEmpty && cs.all Char.isDigit

/-- **An unsigned number below `limit`**: one or more digits, after a plus sign or none. -/
def natural? (limit : Nat) (s : String) : Option Nat :=
  let cs := match s.toList with
    | '+' :: cs => cs
    | cs => cs
  if isDigits cs && decide (digitsValue cs < limit) then some (digitsValue cs) else none

/-- The limit of unsigned words. -/
def wordLimit : Nat := UInt64.size

/-- **A decimal as written**: `± digits · 10 ^ exponent`; `whole` when it has neither point nor
exponent. -/
structure Scanned where
  negative : Bool
  digits : Nat
  exponent : Int
  whole : Bool

/-- Reads the exponent that may follow the digits; nothing else may follow. -/
def scanExponent? : List Char → Option (Option Int)
  | [] => some none
  | c :: cs =>
    if c == 'e' || c == 'E' then
      let (negative, ds) := takeSign cs
      if isDigits ds then
        let n : Int := digitsValue ds
        some (some (if negative then -n else n))
      else none
    else none

/-- **Reads a whole text as a decimal**: a sign, digits with a point among, before or after them,
and an exponent; at least one digit before the exponent. -/
def scan? (cs : List Char) : Option Scanned :=
  let (negative, cs) := takeSign cs
  let whole := cs.takeWhile Char.isDigit
  let (pointed, fraction, rest) := match cs.dropWhile Char.isDigit with
    | '.' :: cs => (true, cs.takeWhile Char.isDigit, cs.dropWhile Char.isDigit)
    | cs => (false, [], cs)
  if whole.isEmpty && fraction.isEmpty then none
  else
    (scanExponent? rest).map fun e =>
      { negative
        digits := digitsValue (whole ++ fraction)
        exponent := e.getD 0 - fraction.length
        whole := !pointed && e.isNone }

namespace Scanned

/-- The signed whole number, for a decimal with neither point nor exponent. -/
def integer (s : Scanned) : Int := if s.negative then -(s.digits : Int) else s.digits

/-- **The double nearest to the decimal.**  Powers of ten far outside the range of doubles are not
worked out: they give infinity or zero. -/
def toFloat (s : Scanned) : Float :=
  let size : Int := (Nat.toDigits 10 s.digits).length
  let magnitude : Float :=
    if s.digits = 0 || s.exponent + size < -330 then 0
    else if 310 < s.exponent + size then 1 / 0
    else Float.ofScientific s.digits (decide (s.exponent < 0)) s.exponent.natAbs
  if s.negative then -magnitude else magnitude

end Scanned

/-- The words for values that are no finite numbers, in any case of letters. -/
def special? (cs : List Char) : Option Float :=
  let word := cs.map Char.toLower
  if word == "inf".toList || word == "infinity".toList then some (1 / 0)
  else if word == "nan".toList then some (0 / 0)
  else none

/-- **Reads a double.** -/
def real? (s : String) : Option Float :=
  let (negative, cs) := takeSign s.toList
  match special? cs with
  | some x => some (if negative then -x else x)
  | none => (scan? s.toList).map Scanned.toFloat

end Backgammon.Decimal
