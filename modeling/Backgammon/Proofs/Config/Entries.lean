import Backgammon.Config.Document.Reading
import Mathlib.Data.List.Basic
import Mathlib.Data.List.Induction
import Mathlib.Data.List.TakeWhile

/-!
# Proofs/Config/Entries — what a text says, and where

    scope { name = n }  ──read?──▸  [scope] := object,  [scope, name] := n  ──lookup──▸  n

What is found at a path is what the last assignment says that bears on it, and an integer that is written
out is read as itself.

* `Document.Sets`, `Document.lookup_eq_some_iff` — the value at a path is set by one assignment, and all
  later ones are somewhere else or objects around it.
* `literal_numeral` — a numeral stands for its integer.
* `read?_entry` — the assignments of a text with one entry.
-/

namespace Backgammon.Config

/-! ## The last assignment -/

section

variable {path : Path} {v : Value} {d : Document} {a : Assignment}

/-- **An assignment that does not bear on a path**: it is somewhere else, or an object around it. -/
def Assignment.Spares (path : Path) (a : Assignment) : Prop :=
  ¬path <+: a.path ∧ (a.path <+: path → a.content = .object)

theorem Content.value?_eq_some_iff {content : Content} :
    content.value? = some v ↔ content = .value v := by
  cases content <;> simp [value?]

/-- **A value is at a path** if it is assigned now, or has been there and is spared. -/
theorem Assignment.bearOn_eq_some_iff {before : Option Value} :
    a.bearOn path before = some v ↔ a = ⟨path, .value v⟩ ∨ a.Spares path ∧ before = some v := by
  obtain ⟨at_path, content⟩ := a
  simp only [bearOn, Spares, List.isPrefixOf_iff_prefix, Assignment.mk.injEq]
  split
  next same =>
    subst same
    simp [Content.value?_eq_some_iff]
  next other =>
    split
    next around =>
      have not_below : ¬path <+: at_path := fun below => 
        other (around.eq_of_length (Nat.le_antisymm around.length_le below.length_le))
      cases content <;> simp [other, not_below, around]
    next => split <;> simp_all

/-- **A value is set at a path** by the last assignment that bears on it. -/
def Document.Sets (d : Document) (path : Path) (v : Value) : Prop :=
  ∃ before after, d = before ++ ⟨path, .value v⟩ :: after ∧ ∀ a ∈ after, a.Spares path

theorem Document.sets_append_singleton :
    Document.Sets (d ++ [a]) path v ↔ a = ⟨path, .value v⟩ ∨ a.Spares path ∧ d.Sets path v := by
  constructor
  · rintro ⟨before, after, eq, spared⟩
    rcases List.eq_nil_or_concat after with rfl | ⟨after, last, rfl⟩
    · exact .inl (List.singleton_inj.1 (List.append_inj' eq rfl).2)
    · rw [List.concat_eq_append, ← List.cons_append, ← List.append_assoc] at eq
      obtain ⟨rfl, last_eq⟩ := List.append_inj' eq rfl
      obtain rfl := List.singleton_inj.1 last_eq
      rw [List.concat_eq_append, List.forall_mem_append, List.forall_mem_singleton] at spared
      exact .inr ⟨spared.2, before, after, rfl, spared.1⟩
  · rintro (rfl | ⟨spares, before, after, rfl, spared⟩)
    · exact ⟨d, [], rfl, by simp⟩
    · refine ⟨before, after ++ [a], by simp, ?_⟩
      exact List.forall_mem_append.2 ⟨spared, List.forall_mem_singleton.2 spares⟩

/-- **What is found at a path** is what is set there. -/
theorem Document.lookup_eq_some_iff : d.lookup path = some v ↔ d.Sets path v := by
  induction d using List.reverseRecOn with
  | nil => simp [lookup, Sets]
  | append_singleton d a ih =>
    rw [lookup_append_singleton, Assignment.bearOn_eq_some_iff, sets_append_singleton, ih]

/-- An object holds nothing by itself. -/
theorem Document.lookup_object (at_path path : Path) : lookup [⟨at_path, .object⟩] path = none := by
  rw [lookup, List.foldl_cons, List.foldl_nil, Assignment.bearOn]
  split
  · rfl
  · split
    · rfl
    · split <;> rfl

/-- **With one entry** there is one value. -/
theorem Document.lookup_entry (scope name : String) (v : Value) (path : Path) :
    lookup [⟨[scope], .object⟩, ⟨[scope, name], .value v⟩] path =
      if path = [scope, name] then some v else none := by
  rw [← List.singleton_append, lookup_append_singleton]
  split
  next here => rw [here, Assignment.bearOn, if_pos rfl, Content.value?]
  next elsewhere =>
    refine Option.eq_none_iff_forall_ne_some.2 fun v' found => ?_
    rcases Assignment.bearOn_eq_some_iff.1 found with assigned | ⟨-, before⟩
    · exact elsewhere (congrArg Assignment.path assigned).symm
    · exact nomatch (lookup_object _ _).symm.trans before

theorem Path.ofName_injective : Function.Injective Path.ofName := by
  intro name name' same
  have parts : name.toList.splitOn '.' = name'.toList.splitOn '.' :=
    List.map_injective_iff.2 (fun _ _ eq => String.ofList_injective eq) same
  have chars := congrArg (List.intercalate ['.']) parts
  rw [List.intercalate_splitOn, List.intercalate_splitOn] at chars
  exact String.toList_injective chars

end

/-! ## Numerals -/

/-- The characters of a numeral. -/
def numeral (n : Int) : List Char := (if n < 0 then ['-'] else []) ++ Nat.toDigits 10 n.natAbs

theorem toList_toString (n : Int) : (toString n).toList = numeral n := by
  rw [Int.toString_eq_repr, Int.repr_eq_if, numeral]
  by_cases nonneg : 0 ≤ n
  · rw [if_pos nonneg, if_neg (Int.not_lt.2 nonneg), Nat.repr, String.toList_ofList, List.nil_append,
      show n.toNat = n.natAbs by omega]
  · rw [if_neg nonneg, if_pos (Int.not_le.1 nonneg), String.toList_append, Nat.repr,
      String.toList_ofList, String.toList_ofList, show (-n).toNat = n.natAbs by omega]

/-- A list of digits begins with one. -/
theorem exists_digit (n : Nat) : ∃ c cs, Nat.toDigits 10 n = c :: cs ∧ c.isDigit = true := by
  obtain ⟨c, cs, eq⟩ := List.exists_cons_of_ne_nil (Nat.toDigits_ne_nil (n := n) (b := 10))
  have digit : c ∈ Nat.toDigits 10 n := eq ▸ List.mem_cons_self
  exact ⟨c, cs, eq, Nat.isDigit_of_mem_toDigits (by decide) (by decide) digit⟩

theorem takeSign_digits (n : Nat) :
    Decimal.takeSign (Nat.toDigits 10 n) = (false, Nat.toDigits 10 n) := by
  obtain ⟨c, cs, eq, digit⟩ := exists_digit n
  rw [eq, Decimal.takeSign]
  all_goals
    rintro cs head
    rw [List.cons.inj head |>.1] at digit
    exact absurd digit (by decide)

/-- A numeral is scanned as a whole number. -/
theorem scan?_numeral (n : Int) :
    Decimal.scan? (numeral n) = some ⟨decide (n < 0), n.natAbs, 0, true⟩ := by
  have signed : Decimal.takeSign (numeral n) = (decide (n < 0), Nat.toDigits 10 n.natAbs) := by
    rw [numeral]
    split
    next negative => rw [decide_eq_true negative]; rfl
    next nonneg => rw [decide_eq_false nonneg]; exact takeSign_digits _
  have digits : ∀ c ∈ Nat.toDigits 10 n.natAbs, c.isDigit = true := fun c mem =>
    Nat.isDigit_of_mem_toDigits (by decide) (by decide) mem
  have all : (Nat.toDigits 10 n.natAbs).takeWhile Char.isDigit = Nat.toDigits 10 n.natAbs :=
    List.takeWhile_eq_self_iff.2 digits
  have rest : (Nat.toDigits 10 n.natAbs).dropWhile Char.isDigit = [] :=
    List.dropWhile_eq_nil_iff.2 digits
  simp [Decimal.scan?, signed, all, rest, Decimal.scanExponent?, Decimal.digitsValue,
    Nat.toDigits_ne_nil, Nat.ofDigitChars_ten_toDigits]

/-- **A numeral stands for its integer**, if 64 bits hold that. -/
theorem literal_numeral {n : Int} (fits : fitsInteger n = true) :
    literal (numeral n) = .value (.integer n) := by
  have scanned := scan?_numeral n
  have integer : (⟨decide (n < 0), n.natAbs, 0, true⟩ : Decimal.Scanned).integer = n := by
    simp only [Decimal.Scanned.integer, decide_eq_true_eq]
    split <;> omega
  -- the words that a literal can be are no numbers
  have other {word : String} (no_number : Decimal.scan? word.toList = none) :
      String.ofList (numeral n) ≠ word := by
    rintro rfl
    rw [String.toList_ofList, scanned] at no_number
    exact nomatch no_number
  rw [literal]
  split
  next eq => exact absurd eq (other (by decide))
  next eq => exact absurd eq (other (by decide))
  next eq => exact absurd eq (other (by decide))
  next => simp only [scanned, integer, fits, Bool.and_self, if_true]

/-- A character of a numeral. -/
def isNumeralChar (c : Char) : Bool := c.isDigit || c == '-'

theorem isNumeralChar_of_mem {n : Int} {c : Char} (mem : c ∈ numeral n) : isNumeralChar c = true := by
  rw [numeral, List.mem_append] at mem
  rcases mem with sign | digit
  · split at sign
    · rw [List.mem_singleton.1 sign]
      decide
    · exact nomatch sign
  · rw [isNumeralChar, Nat.isDigit_of_mem_toDigits (by decide) (by decide) digit, Bool.true_or]

/-! ## Entries -/

/-- A character of a word. -/
def isWordChar (c : Char) : Bool := c.isAlpha || c == '_'

/-- **A word**: letters and underscores, at least one. -/
def IsWord (s : String) : Prop := s.toList ≠ [] ∧ s.toList.all isWordChar = true

instance (s : String) : Decidable (IsWord s) := inferInstanceAs (Decidable (_ ∧ _))

/-! What a character of a word or of a numeral is not: each mark is in a short list, and no character of
that list is of the kind. -/

section

variable {kind : Char → Bool} {c : Char} (hc : kind c = true)

include hc

theorem ne_of_kind {x : Char} (other : kind x = false) : c ≠ x := by
  rintro rfl
  exact absurd (hc.symm.trans other) (by decide)

theorem notMem_of_kind {marks : List Char} (others : marks.any kind = false) : c ∉ marks := fun mem =>
  List.any_eq_false.1 others c mem hc

theorem isBlank_eq_false (others : [' ', '\t', '\r'].any kind = false) : isBlank c = false := by
  simpa [isBlank, and_assoc] using notMem_of_kind hc others

theorem endsLiteral_eq_false (others : ['\n', ',', '\x7d', ']', '#'].any kind = false) :
    endsLiteral c = false := by
  simpa [endsLiteral, and_assoc] using notMem_of_kind hc others

theorem endsKey_eq_false
    (others : ['=', ':', '[', '\x7b', '"', '\n', ',', '\x7d', ']', '#'].any kind = false) :
    endsKey c = false := by
  simpa [endsKey, endsLiteral, and_assoc] using notMem_of_kind hc others

end

theorem trimRight_append_blank {cs : List Char} (plain : ∀ c ∈ cs, isBlank c = false) :
    trimRight (cs ++ [' ']) = cs := by
  have last : (cs.reverse).dropWhile isBlank = cs.reverse := by
    cases h : cs.reverse with
    | nil => rfl
    | cons c rest =>
      have mem : c ∈ cs := List.mem_reverse.1 (h ▸ List.mem_cons_self)
      rw [List.dropWhile_cons_of_neg (by simp [plain c mem])]
  rw [trimRight, List.reverse_append, List.reverse_singleton, List.singleton_append,
    List.dropWhile_cons_of_pos (by decide), last, List.reverse_reverse]

theorem takeLiteral_append {cs : List Char} (plain : ∀ c ∈ cs, endsLiteral c = false ∧ c ≠ '/')
    {stop : Char} (stops : endsLiteral stop = true) (rest : List Char) :
    takeLiteral (cs ++ stop :: rest) = (cs, stop :: rest) := by
  induction cs with
  | nil => rw [List.nil_append, takeLiteral, if_pos (by rw [stops, Bool.true_or])]
  | cons c cs ih =>
    obtain ⟨⟨goes, slash⟩, plain⟩ := List.forall_mem_cons.1 plain
    rw [List.cons_append, takeLiteral, if_neg (by simp [goes, slash]), ih plain]

/-- What follows a mark of equality is taken up to the end of the value, unless it opens something. -/
theorem content?_bare {c : Char} (blank : isBlank c = false)
    (opens : c ≠ '\x7b' ∧ c ≠ '[' ∧ c ≠ '"') {cs value rest : List Char}
    (taken : takeLiteral (c :: cs) = (value, rest)) (some_value : value ≠ []) :
    content? ('=' :: ' ' :: c :: cs) = some (literal (trimRight value), rest) := by
  have skip : skipBlanks (' ' :: c :: cs) = c :: cs := by
    rw [skipBlanks, List.dropWhile_cons_of_pos (by decide), List.dropWhile_cons_of_neg (by simp [blank])]
  rw [content?, show skipBlanks ('=' :: ' ' :: c :: cs) = '=' :: ' ' :: c :: cs from rfl]
  split
  next eq => exact absurd (List.cons.inj eq).1 (by decide)
  next marked eq =>
    obtain ⟨rfl, rfl⟩ := List.cons.inj eq
    rw [if_pos (by decide), skip]
    split
    next eq => exact absurd (List.cons.inj eq).1 opens.1
    next eq => exact absurd (List.cons.inj eq).1 opens.2.1
    next eq => exact absurd (List.cons.inj eq).1 opens.2.2
    next => rw [taken]; exact if_neg (by simpa using some_value)
  next eq => exact nomatch eq

theorem exists_numeral_eq_cons (n : Int) : ∃ c cs, numeral n = c :: cs := by
  refine List.exists_cons_of_ne_nil fun empty => ?_
  rw [numeral, List.append_eq_nil_iff] at empty
  exact Nat.toDigits_ne_nil empty.2

/-- **An integer after a mark of equality** is read as itself. -/
theorem content?_numeral {n : Int} (fits : fitsInteger n = true) (rest : List Char) :
    content? ('=' :: ' ' :: (numeral n ++ ' ' :: '\x7d' :: rest)) =
      some (.value (.integer n), '\x7d' :: rest) := by
  have kinds : ∀ c ∈ numeral n, isNumeralChar c = true := fun c => isNumeralChar_of_mem
  have plain : ∀ c ∈ numeral n ++ [' '], endsLiteral c = false ∧ c ≠ '/' := by
    rw [List.forall_mem_append, List.forall_mem_singleton]
    exact ⟨fun c mem => ⟨endsLiteral_eq_false (kinds c mem) (by decide),
      ne_of_kind (kinds c mem) (by decide)⟩, by decide⟩
  have value : trimRight (numeral n ++ [' ']) = numeral n :=
    trimRight_append_blank fun c mem => isBlank_eq_false (kinds c mem) (by decide)
  have stops : endsLiteral '\x7d' = true := by decide
  have taken := takeLiteral_append plain stops rest
  rw [List.append_assoc, List.singleton_append] at taken
  obtain ⟨c, cs, first⟩ := exists_numeral_eq_cons n
  have kind := kinds c (first ▸ List.mem_cons_self)
  rw [first, List.cons_append] at taken
  rw [first, List.cons_append, content?_bare (isBlank_eq_false kind (by decide))
    ⟨ne_of_kind kind (by decide), ne_of_kind kind (by decide), ne_of_kind kind (by decide)⟩ taken
    (List.cons_ne_nil _ _), ← first, value, literal_numeral fits]

/-! ## Keys -/

/-- **A word before an opening brace or a mark of equality** is a key. -/
theorem key?_word {w : List Char} (some_word : w ≠ []) (word : ∀ c ∈ w, isWordChar c = true)
    {stop : Char} (stops : endsKey stop = true) (rest : List Char) :
    key? (w ++ ' ' :: stop :: rest) = some ([String.ofList w], stop :: rest) := by
  obtain ⟨c, cs, rfl⟩ := List.exists_cons_of_ne_nil some_word
  have goes : ∀ c' ∈ c :: cs ++ [' '], (!endsKey c') = true := by
    rw [List.forall_mem_append, List.forall_mem_singleton]
    exact ⟨fun c' mem => by rw [endsKey_eq_false (word c' mem) (by decide), Bool.not_false], by decide⟩
  have no_point : '.' ∉ c :: cs := fun mem => absurd (word '.' mem) (by decide)
  have split : c :: cs ++ ' ' :: stop :: rest = c :: cs ++ [' '] ++ stop :: rest := by simp
  have taken : (c :: cs ++ ' ' :: stop :: rest).takeWhile (!endsKey ·) = c :: cs ++ [' '] := by
    rw [split, List.takeWhile_append_of_pos goes, List.takeWhile_cons_of_neg (by simp [stops]),
      List.append_nil]
  have left : (c :: cs ++ ' ' :: stop :: rest).dropWhile (!endsKey ·) = stop :: rest := by
    rw [split, List.dropWhile_append_of_pos goes, List.dropWhile_cons_of_neg (by simp [stops])]
  have trimmed : trimRight (c :: cs ++ [' ']) = c :: cs :=
    trimRight_append_blank fun c' mem => isBlank_eq_false (word c' mem) (by decide)
  have path : Path.ofName (String.ofList (c :: cs)) = [String.ofList (c :: cs)] := by
    rw [Path.ofName, String.toList_ofList, List.splitOn_eq_singleton no_point, List.map_singleton]
  rw [key?]
  · simp only [taken, left, trimmed, path]
    rfl
  · rintro _ quoted
    exact ne_of_kind (word c List.mem_cons_self) (by decide) (List.cons.inj quoted).1

/-! ## Texts -/

section

variable {steps : Nat} {openObjects : List Path} {done : Document}

theorem readEntries_blank (cs : List Char) :
    readEntries (steps + 1) openObjects done (' ' :: cs) = readEntries steps openObjects done cs := by
  cases openObjects <;> rfl

theorem readEntries_close (path : Path) (cs : List Char) :
    readEntries (steps + 1) (path :: openObjects) done ('\x7d' :: cs) =
      readEntries steps openObjects done cs := rfl

/-- The objects that are open after an entry. -/
def openAfter (path : Path) (openObjects : List Path) : Content → List Path
  | .object => path :: openObjects
  | _ => openObjects

/-- **An entry** is read in one step. -/
theorem readEntries_entry {w : List Char} (some_word : w ≠ []) (word : ∀ c ∈ w, isWordChar c = true)
    {stop : Char} (stops : endsKey stop = true) {cs rest : List Char} {content : Content}
    (follows : content? (stop :: cs) = some (content, rest)) :
    readEntries (steps + 1) openObjects done (w ++ ' ' :: stop :: cs) =
      readEntries steps (openAfter (openObjects.headD [] ++ [String.ofList w]) openObjects content)
        (⟨openObjects.headD [] ++ [String.ofList w], content⟩ :: done) rest := by
  have key := key?_word some_word word stops cs
  obtain ⟨c, w, rfl⟩ := List.exists_cons_of_ne_nil some_word
  have kind := word c List.mem_cons_self
  have ne {x : Char} (other : isWordChar x = false) : (c == x) = false := by
    simpa using ne_of_kind kind other
  have blank : isBlank c = false := isBlank_eq_false kind (by decide)
  rw [List.cons_append] at key ⊢
  have line : (c == '\n') = false := ne (by decide)
  have comma : (c == ',') = false := ne (by decide)
  have comment : (c == '#') = false := ne (by decide)
  have slash : (c == '/') = false := ne (by decide)
  have closes : (c == '\x7d') = false := ne (by decide)
  have opens : (c == '\x7b') = false := ne (by decide)
  cases openObjects <;>
    simp only [readEntries, blank, line, comma, comment, slash, closes, opens, key, follows,
      Bool.or_false, Bool.false_and, Bool.false_eq_true, if_false] <;>
    cases content <;> rfl

end

/-- **A text with one entry** sets an integer within an object. -/
theorem read?_entry {scope name : String} (hscope : IsWord scope) (hname : IsWord name) {n : Int}
    (fits : fitsInteger n = true) :
    Document.read? (scope ++ " \x7b " ++ name ++ " = " ++ toString n ++ " \x7d") =
      some [⟨[scope], .object⟩, ⟨[scope, name], .value (.integer n)⟩] := by
  have text : (scope ++ " \x7b " ++ name ++ " = " ++ toString n ++ " \x7d").toList =
      scope.toList ++ ' ' :: '\x7b' :: ' ' :: (name.toList ++ ' ' :: '=' :: ' ' ::
        (numeral n ++ ' ' :: '\x7d' :: [])) := by
    simp only [String.toList_append, toList_toString]
    simp
  obtain ⟨steps, enough⟩ : ∃ steps,
      (scope ++ " \x7b " ++ name ++ " = " ++ toString n ++ " \x7d").length + 1 = steps + 5 := by
    refine ⟨_, (Nat.sub_add_cancel ?_).symm⟩
    rw [← String.length_toList, text]
    simp
    omega
  rw [Document.read?, text, enough, readEntries_entry hscope.1 (List.all_eq_true.1 hscope.2) (by decide) rfl,
    readEntries_blank, readEntries_entry hname.1 (List.all_eq_true.1 hname.2) (by decide)
      (content?_numeral fits [])]
  simp only [openAfter, readEntries_close, String.ofList_toList]
  rfl

end Backgammon.Config
