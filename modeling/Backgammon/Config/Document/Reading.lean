import Backgammon.Config.Document

/-!
# Config/Document/Reading — reading a configuration text

Entries are separated by line ends and commas.  An entry is a key, a mark of equality and a value, or
a key and an object.  A bare key with points in it is a path; a quoted key is one key.  Comments start
with `#` or `//`.

* `literal` — what an unquoted value stands for.
* `Document.read?` — the assignments of a text, unless an object is left open or an entry is no entry.
-/

namespace Backgammon.Config

/-- Space within a line. -/
def isBlank (c : Char) : Bool := c == ' ' || c == '\t' || c == '\r'

/-- Leading blanks dropped. -/
def skipBlanks (cs : List Char) : List Char := cs.dropWhile isBlank

/-- Trailing blanks dropped. -/
def trimRight (cs : List Char) : List Char := (cs.reverse.dropWhile isBlank).reverse

/-- The rest after the end of the line. -/
def skipLine (cs : List Char) : List Char := cs.dropWhile (· != '\n')

/-- The numbers that integers may be: those that 64 bits hold with a sign. -/
def fitsInteger (n : Int) : Bool :=
  decide (Int64.minValue.toInt ≤ n) && decide (n ≤ Int64.maxValue.toInt)

/-- **What an unquoted value stands for**: a truth value, nothing, an integer, a real number, or else
itself. -/
def literal (cs : List Char) : Content :=
  match String.ofList cs with
  | "true" => .value (.boolean true)
  | "false" => .value (.boolean false)
  | "null" => .other
  | s =>
    match Decimal.scan? cs with
    | some n =>
      if n.whole && fitsInteger n.integer then .value (.integer n.integer)
      else .value (.real n.toFloat)
    | none => .value (.text s)

/-- The value of a hexadecimal digit. -/
def hexDigit? (c : Char) : Option Nat :=
  if c.isDigit then some (c.toNat - '0'.toNat)
  else if 'a' ≤ c ∧ c ≤ 'f' then some (c.toNat - 'a'.toNat + 10)
  else if 'A' ≤ c ∧ c ≤ 'F' then some (c.toNat - 'A'.toNat + 10)
  else none

/-- The character of an escape by one letter. -/
def escaped : Char → Char
  | 'n' => '\n'
  | 't' => '\t'
  | 'r' => '\r'
  | 'b' => '\x08'
  | 'f' => '\x0c'
  | c => c

/-- The inside of a quoted text up to its closing quote, and the rest; `read` is what has been read of
it, the latest first. -/
def quoted? : (read : List Char) → List Char → Option (String × List Char)
  | _, [] => none
  | read, '"' :: cs => some (String.ofList read.reverse, cs)
  | read, '\\' :: 'u' :: a :: b :: c :: d :: cs =>
    match hexDigit? a, hexDigit? b, hexDigit? c, hexDigit? d with
    | some a, some b, some c, some d =>
      quoted? (Char.ofNat (((a * 16 + b) * 16 + c) * 16 + d) :: read) cs
    | _, _, _, _ => none
  | read, '\\' :: c :: cs => quoted? (escaped c :: read) cs
  | read, c :: cs => quoted? (c :: read) cs

/-- The rest after brackets have been closed, so many of them open; quoted texts are passed over. -/
def closeBrackets? : (openings : Nat) → (inText : Bool) → List Char → Option (List Char)
  | _, _, [] => none
  | n, true, '\\' :: _ :: cs => closeBrackets? n true cs
  | n, true, c :: cs => closeBrackets? n (c != '"') cs
  | n, false, c :: cs =>
    if c == '"' then closeBrackets? n true cs
    else if c == '[' || c == '{' then closeBrackets? (n + 1) false cs
    else if c == ']' || c == '\x7d' then
      if n ≤ 1 then some cs else closeBrackets? (n - 1) false cs
    else closeBrackets? n false cs

/-- A character that ends an unquoted value. -/
def endsLiteral (c : Char) : Bool := c == '\n' || c == ',' || c == '\x7d' || c == ']' || c == '#'

/-- An unquoted value and the rest. -/
def takeLiteral : List Char → List Char × List Char
  | [] => ([], [])
  | c :: cs =>
    if endsLiteral c || (c == '/' && cs.head? == some '/') then ([], c :: cs)
    else
      let (value, rest) := takeLiteral cs
      (c :: value, rest)

/-- A character that ends a bare key. -/
def endsKey (c : Char) : Bool :=
  c == '=' || c == ':' || c == '[' || c == '\x7b' || c == '"' || endsLiteral c

/-- A key at the head of the text, as a path, and the rest. -/
def key? (cs : List Char) : Option (Path × List Char) :=
  match cs with
  | '"' :: cs => (quoted? [] cs).map fun (s, rest) => ([s], rest)
  | cs =>
    let key := trimRight (cs.takeWhile (!endsKey ·))
    if key.isEmpty then none
    else some (Path.ofName (String.ofList key), cs.dropWhile (!endsKey ·))

/-- **The content that follows a key**, and the rest: an object at its opening brace, or a value. -/
def content? (cs : List Char) : Option (Content × List Char) :=
  match skipBlanks cs with
  | '\x7b' :: cs => some (.object, cs)
  | c :: cs =>
    if c == '=' || c == ':' then
      match skipBlanks cs with
      | '\x7b' :: cs => some (.object, cs)
      | '[' :: cs => (closeBrackets? 1 false cs).map fun rest => (.other, rest)
      | '"' :: cs => (quoted? [] cs).map fun (s, rest) => (.value (.text s), rest)
      | cs =>
        let (value, rest) := takeLiteral cs
        if value.isEmpty then none else some (literal (trimRight value), rest)
    else none
  | [] => none

/-- **Reads entries** until the text ends.  `openObjects` are the paths of the objects that are open,
the innermost first.  Every step takes at least one character, so the length of the text bounds their
number. -/
def readEntries : (steps : Nat) → (openObjects : List Path) → Document → List Char →
    Option Document
  | 0, _, _, _ => none
  | _ + 1, openObjects, done, [] => if openObjects.isEmpty then some done.reverse else none
  | steps + 1, openObjects, done, c :: cs =>
    if isBlank c || c == '\n' || c == ',' then readEntries steps openObjects done cs
    else if c == '#' || (c == '/' && cs.head? == some '/') then
      readEntries steps openObjects done (skipLine cs)
    else if c == '\x7d' then
      match openObjects with
      | [] => none
      | _ :: outer => readEntries steps outer done cs
    else if c == '\x7b' then
      if openObjects.isEmpty && done.isEmpty then readEntries steps [[]] done cs else none
    else
      match key? (c :: cs) with
      | none => none
      | some (key, rest) =>
        let path := openObjects.headD [] ++ key
        match content? rest with
        | none => none
        | some (content, rest) =>
          let openObjects := match content with
            | .object => path :: openObjects
            | _ => openObjects
          readEntries steps openObjects (⟨path, content⟩ :: done) rest

/-- **The assignments of a text.** -/
def Document.read? (s : String) : Option Document :=
  readEntries (s.length + 1) [] [] s.toList

end Backgammon.Config
