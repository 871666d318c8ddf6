import LexiconCompiler.Json.Numeral
import LexiconCompiler.Json.Reader
import LexiconCompiler.Proofs.Json.Writing
import LexiconCompiler.Proofs.Source.Escaping
import LexiconCompiler.Proofs.Source.Strings

/-!
# The values of expressions

What Python makes of the expressions that stand for plain values: words, whole numbers,
strings and tuples. Operators, names and numbers that are not whole are left out. An
implementation may refuse long numbers and deep nesting, so both limits are parameters.
-/

namespace LexiconCompiler.Source

/-- What an expression stands for. A string is the sequence of its code points. -/
inductive Value where
  | none
  | bool (value : Bool)
  | int (value : Int)
  | str (codes : List Nat)
  | tuple (items : List Value)
  deriving Inhabited, Repr

/-- What an implementation takes at most. -/
structure Limits where
  /-- The digits of a whole number. -/
  digits : Nat
  /-- The parentheses around a value. -/
  nesting : Nat
  deriving DecidableEq, Repr

namespace Expression

/-- The words that stand for values. -/
def words : List (String × Value) :=
  [("None", .none), ("True", .bool true), ("False", .bool false)]

/-- A word at the start of a text. -/
def wordAt? (text : List Char) : Option (Value × List Char) :=
  words.findSome? fun (word, value) =>
    if word.toList <+: text then some (value, text.drop word.length) else none

/-- A whole number without a sign. Only a zero alone starts with a zero. -/
def sizeAt? (limits : Limits) (text : List Char) : Option (Nat × List Char) :=
  let digits := Json.digitsAt text
  if digits = [] ∨ digits.head? = some '0' ∧ digits ≠ ['0'] ∨ limits.digits < digits.length then
    none
  else some (Nat.ofDigitChars 10 digits 0, text.drop digits.length)

/-- A whole number, perhaps with a minus sign. -/
def intAt? (limits : Limits) : List Char → Option (Value × List Char)
  | '-' :: rest => (sizeAt? limits rest).map fun read => (.int (-read.1), read.2)
  | text => (sizeAt? limits text).map fun read => (.int read.1, read.2)

/-- A string with its escapes. -/
def strAt? (text : List Char) : Option (Value × List Char) := do
  let (contents, rest) ← stringAt? text
  let codes ← unescape contents
  some (.str codes, rest)

/-- A value without parentheses. -/
def scalarAt? (limits : Limits) (text : List Char) : Option (Value × List Char) :=
  (wordAt? text).or ((intAt? limits text).or (strAt? text))

/-- A value among blanks. -/
def itemAt? (read : List Char → Option (Value × List Char)) (text : List Char) :
    Option (Value × List Char) :=
  (read (Json.skipLayout text)).map fun found => (found.1, Json.skipLayout found.2)

/-- The items behind a comma, up to the parenthesis that closes them. Each item takes one
from the budget, and so does a comma without an item behind it. -/
def itemsAt? (read : List Char → Option (Value × List Char)) :
    (budget : Nat) → List Char → Option (List Value × List Char)
  | 0, _ => none
  | budget + 1, text =>
      match Json.skipLayout text with
      | ')' :: rest => some ([], rest)
      | _ =>
          match itemAt? read text with
          | some (item, ')' :: rest) => some ([item], rest)
          | some (item, ',' :: rest) =>
              (itemsAt? read budget rest).map fun found => (item :: found.1, found.2)
          | _ => none

/-- What an opened parenthesis holds. Without a comma it is no tuple. -/
def parenthesizedAt? (read : List Char → Option (Value × List Char)) (text : List Char) :
    Option (Value × List Char) :=
  match Json.skipLayout text with
  | ')' :: rest => some (.tuple [], rest)
  | _ =>
      match itemAt? read text with
      | some (item, ')' :: rest) => some (item, rest)
      | some (item, ',' :: rest) =>
          (itemsAt? read (rest.length + 1) rest).map fun found =>
            (.tuple (item :: found.1), found.2)
      | _ => none

/-- A value with so many parentheses around what it holds. -/
def valueAt? (limits : Limits) : (nesting : Nat) → List Char → Option (Value × List Char)
  | nesting + 1, '(' :: rest => parenthesizedAt? (valueAt? limits nesting) rest
  | _, text => scalarAt? limits text

end Expression

/-- The value of a text that is an expression. -/
def evaluate (limits : Limits) (text : List Char) : Option Value :=
  match Expression.valueAt? limits limits.nesting text with
  | some (value, []) => some value
  | _ => none

example : evaluate ⟨4, 2⟩ "(None, (-12, \"\\t\"),)".toList =
    some (.tuple [.none, .tuple [.int (-12), .str [9]]]) := by
  rfl

example : evaluate ⟨4, 2⟩ "((1,))".toList = some (.tuple [.int 1]) := by rfl

example : evaluate ⟨4, 2⟩ "(((1)))".toList = none := by rfl

/-! ## Strings -/

variable {text rest : List Char}

theorem Reading.Written.passed (written : Reading.Written text) (rest : List Char) :
    Passed ['"'] text rest := by
  induction written with
  | nil => exact .nil _ _
  | @ordinary c later ordinary _ ih =>
      simp only [Reading.isOrdinary, Bool.and_eq_true, decide_eq_true_eq] at ordinary
      have opens : ¬ ['"'] <+: c :: (later ++ rest) := by
        rintro ⟨_, begins⟩
        exact ordinary.1.1 (List.cons.inj begins).1.symm
      exact (passed_singleton ordinary.1.2 opens).append ih
  | escaped _ _ ih => exact (passed_escape _ _ _).append ih

theorem stringAt?_short (short : ¬ ['"', '"'] <+: text) : stringAt? ('"' :: text) =
    (quoted? ['"'] text).filter fun read => read.1.all fun c => !endsLine c := by
  rw [stringAt?]
  intro other begins
  exact short ⟨other, begins.symm⟩

/-- A string is read to its closing quote, if no quote follows it. -/
theorem stringAt?_writeString (apart : rest.head? ≠ some '"') (text : List Char) :
    stringAt? (Json.writeString text ++ rest) = some (text.flatMap Json.writtenChar, rest) := by
  have written := Reading.written_flatMap_writtenChar text
  have closed : quoted? ['"'] ('"' :: rest) = some ([], rest) :=
    quoted?_closing (by decide) [] rest
  have whole : (text.flatMap Json.writtenChar).all (fun c => !endsLine c) = true := by
    rw [List.all_eq_true]
    intro c member
    rw [written.unbroken c member]
    rfl
  have shown : Json.writeString text ++ rest =
      '"' :: (text.flatMap Json.writtenChar ++ '"' :: rest) := by
    simp [Json.writeString]
  have short : ¬ ['"', '"'] <+: text.flatMap Json.writtenChar ++ '"' :: rest := by
    rintro ⟨other, begins⟩
    cases contents : text.flatMap Json.writtenChar with
    | nil =>
        rw [contents] at begins
        rw [← (List.cons.inj begins).2] at apart
        exact apart rfl
    | cons first others =>
        rw [contents] at begins written
        exact written.head_ne_quote (List.cons.inj begins).1.symm
  rw [shown, stringAt?_short short, written.passed, closed, Option.map_some, List.append_nil,
    Option.filter_some, whole]
  rfl

theorem gives_writtenChar (c : Char) : Gives (Json.writtenChar c) (Text.codeUnits c) := by
  have meanings : ∀ entry ∈ Json.shortEscapes,
      Escape.of? entry.2 = some (.codes (Text.codeUnits entry.1)) := by
    simp [Json.shortEscapes, Escape.of?, Text.codeUnits]
  rcases Json.writtenChar_cases c with
    ⟨letter, known, written⟩ | ⟨other, printable, written⟩ | written
  · rw [written]
    exact gives_escape (meanings _ known)
  · have basic : c.toNat < 0x10000 := by
      have top : c.toNat ≤ '~'.toNat := printable.2
      exact Nat.lt_of_le_of_lt top (by decide)
    have noEscape : c ≠ '\\' := other ('\\', '\\') (by decide)
    rw [written, Text.codeUnits, if_pos basic]
    exact gives_singleton noEscape
  · have units : ∀ unit ∈ Text.codeUnits c, unit < 0x10000 := by
      rcases Text.codeUnits_cases c with ⟨single, basic, _⟩ | ⟨high, low, pair, small, also, _⟩
      · rw [single]
        simpa using basic
      · rw [pair]
        simpa using ⟨small, also⟩
    have each := Gives.flatMap fun unit member => gives_unit (units unit member)
    rw [List.flatMap_singleton'] at each
    rwa [written]

namespace Expression

/-- A string that is written for a text has the code units of the text. -/
theorem strAt?_writeString (apart : rest.head? ≠ some '"') (text : List Char) :
    strAt? (Json.writeString text ++ rest) =
      some (.str (text.flatMap Text.codeUnits), rest) := by
  have gives : Gives (text.flatMap Json.writtenChar) (text.flatMap Text.codeUnits) :=
    .flatMap fun c _ => gives_writtenChar c
  rw [strAt?, stringAt?_writeString apart]
  simp only [Option.bind_eq_bind, Option.bind_some, gives.unescape_eq]

/-! ## Numbers -/

theorem sizeAt?_toDigits (limits : Limits) (ends : Json.EndsDigits rest) (size : Nat) :
    sizeAt? limits (Nat.toDigits 10 size ++ rest) =
      if (Nat.toDigits 10 size).length ≤ limits.digits then some (size, rest) else none := by
  have digits : Json.digitsAt (Nat.toDigits 10 size ++ rest) = Nat.toDigits 10 size :=
    Json.digitsAt_append (fun _ => Nat.isDigit_of_mem_toDigits (by decide) (by decide)) ends
  have value : Nat.ofDigitChars 10 (Nat.toDigits 10 size) 0 = size :=
    Nat.ofDigitChars_toDigits (by decide) (by decide)
  have leading : ¬ ((Nat.toDigits 10 size).head? = some '0' ∧ Nat.toDigits 10 size ≠ ['0']) := by
    rintro ⟨zero, more⟩
    rw [Json.eq_zero_of_head?_toDigits zero] at more
    exact more rfl
  rw [sizeAt?]
  simp only [digits, Nat.toDigits_ne_nil, leading, false_or, value, List.drop_left]
  split
  · rename_i long
    rw [if_neg (Nat.not_le.mpr long)]
  · rename_i short
    rw [if_pos (Nat.not_lt.mp short)]

theorem exists_digit_toDigits (size : Nat) :
    ∃ c after, Nat.toDigits 10 size = c :: after ∧ c.isDigit = true := by
  cases shown : Nat.toDigits 10 size with
  | nil => exact absurd shown Nat.toDigits_ne_nil
  | cons c after =>
      have member : c ∈ Nat.toDigits 10 size := by simp [shown]
      exact ⟨c, after, rfl, Nat.isDigit_of_mem_toDigits (by decide) (by decide) member⟩

/-- A whole number is written with a minus sign or a digit at its start. -/
theorem exists_head_writeInt (value : Int) :
    ∃ c after, Json.writeInt value = c :: after ∧ (c = '-' ∨ c.isDigit = true) := by
  cases value with
  | ofNat size =>
      obtain ⟨c, after, shown, digit⟩ := exists_digit_toDigits size
      exact ⟨c, after, shown, .inr digit⟩
  | negSucc size => exact ⟨'-', _, rfl, .inl rfl⟩

theorem intAt?_of_head?_ne (plain : text.head? ≠ some '-') (limits : Limits) :
    intAt? limits text = (sizeAt? limits text).map fun read => (.int read.1, read.2) := by
  rw [intAt?]
  rintro rest rfl
  exact plain rfl

theorem intAt?_writeInt (limits : Limits) (ends : Json.EndsDigits rest) (value : Int) :
    intAt? limits (Json.writeInt value ++ rest) =
      if (Nat.toDigits 10 value.natAbs).length ≤ limits.digits then some (.int value, rest)
      else none := by
  cases value with
  | ofNat size =>
      have plain : (Nat.toDigits 10 size ++ rest).head? ≠ some '-' := by
        obtain ⟨c, after, shown, digit⟩ := exists_digit_toDigits size
        rw [shown]
        intro minus
        rw [Option.some.inj minus] at digit
        cases digit
      rw [Json.writeInt, intAt?_of_head?_ne plain, sizeAt?_toDigits limits ends,
        show (Int.ofNat size).natAbs = size from rfl]
      split <;> rfl
  | negSucc size =>
      rw [Json.writeInt, List.cons_append, intAt?, sizeAt?_toDigits limits ends,
        Int.natAbs_negSucc]
      split <;> rfl

/-! ## Values without parentheses -/

/-- What comes after a value ends the text, or it is a comma or a closing parenthesis. -/
def Follows (rest : List Char) : Prop :=
  ∀ c ∈ rest.head?, c = ',' ∨ c = ')'

theorem Follows.endsDigits (follows : Follows rest) : Json.EndsDigits rest := by
  intro c head
  rcases follows c head with rfl | rfl <;> decide

theorem Follows.head?_ne (follows : Follows rest) : rest.head? ≠ some '"' := by
  intro head
  rcases follows '"' head with same | same <;> cases same

theorem wordAt?_eq_none (other : ∀ c ∈ text.head?, c ≠ 'N' ∧ c ≠ 'T' ∧ c ≠ 'F') :
    wordAt? text = none := by
  rw [wordAt?, List.findSome?_eq_none_iff]
  intro entry member
  apply if_neg
  rintro ⟨rest, rfl⟩
  simp only [words, List.mem_cons, List.not_mem_nil, or_false] at member
  rcases member with rfl | rfl | rfl
  · exact (other 'N' rfl).1 rfl
  · exact (other 'T' rfl).2.1 rfl
  · exact (other 'F' rfl).2.2 rfl

theorem intAt?_eq_none (other : ∀ c ∈ text.head?, c ≠ '-' ∧ c.isDigit = false)
    (limits : Limits) : intAt? limits text = none := by
  have digits : Json.digitsAt text = [] := by
    cases text with
    | nil => rfl
    | cons c rest => exact List.takeWhile_cons_of_neg (by simp [(other c rfl).2])
  rw [intAt?_of_head?_ne fun minus => (other '-' minus).1 rfl, sizeAt?, digits]
  simp

theorem strAt?_eq_none (other : text.head? ≠ some '"') : strAt? text = none := by
  have none : stringAt? text = none := by
    rw [stringAt?]
    · rintro rest rfl
      exact other rfl
    · rintro rest rfl
      exact other rfl
  rw [strAt?, none]
  rfl

theorem scalarAt?_writeString (limits : Limits) (follows : Follows rest) (text : List Char) :
    scalarAt? limits (Json.writeString text ++ rest) =
      some (.str (text.flatMap Text.codeUnits), rest) := by
  have quote : (Json.writeString text ++ rest).head? = some '"' := rfl
  rw [scalarAt?, wordAt?_eq_none (by simp [quote]), intAt?_eq_none (by simp [quote]),
    strAt?_writeString follows.head?_ne]
  rfl

theorem scalarAt?_writeInt (limits : Limits) (follows : Follows rest) (value : Int) :
    scalarAt? limits (Json.writeInt value ++ rest) =
      if (Nat.toDigits 10 value.natAbs).length ≤ limits.digits then some (.int value, rest)
      else none := by
  obtain ⟨c, after, shown, sort⟩ := exists_head_writeInt value
  have head : (Json.writeInt value ++ rest).head? = some c := by rw [shown]; rfl
  have other : c ≠ 'N' ∧ c ≠ 'T' ∧ c ≠ 'F' ∧ c ≠ '"' := by
    refine ⟨?_, ?_, ?_, ?_⟩ <;> rintro rfl <;> revert sort <;> decide
  rw [scalarAt?, wordAt?_eq_none (by simp [head, other]), strAt?_eq_none (by simp [head, other]),
    intAt?_writeInt limits follows.endsDigits, Option.none_or, Option.or_none]

/-! ## Items -/

variable {read : List Char → Option (Value × List Char)} {c : Char} {after : List Char}

theorem skipLayout_of_head (solid : Json.isLayout c = false) (after : List Char) :
    Json.skipLayout (c :: after) = c :: after :=
  List.dropWhile_cons_of_neg (by simp [solid])

/-- Behind a comma and a blank there is an item, if no parenthesis follows. -/
theorem itemsAt?_blank (skipped : Json.skipLayout text = c :: after) (opened : c ≠ ')')
    (budget : Nat) : itemsAt? read (budget + 1) (' ' :: text) =
      match itemAt? read text with
      | some (item, ')' :: rest) => some ([item], rest)
      | some (item, ',' :: rest) =>
          (itemsAt? read budget rest).map fun found => (item :: found.1, found.2)
      | _ => none := by
  have blank : Json.skipLayout (' ' :: text) = Json.skipLayout text := rfl
  rw [itemsAt?, blank, skipped]
  split
  · rename_i begins
    exact absurd (List.cons.inj begins).1 opened
  · rfl

/-- In a parenthesis that is not closed at once there is an item. -/
theorem parenthesizedAt?_eq (skipped : Json.skipLayout text = c :: after) (opened : c ≠ ')') :
    parenthesizedAt? read text =
      match itemAt? read text with
      | some (item, ')' :: rest) => some (item, rest)
      | some (item, ',' :: rest) =>
          (itemsAt? read (rest.length + 1) rest).map fun found =>
            (.tuple (item :: found.1), found.2)
      | _ => none := by
  rw [parenthesizedAt?, skipped]
  split
  · rename_i begins
    exact absurd (List.cons.inj begins).1 opened
  · rfl

theorem valueAt?_of_head?_ne (plain : text.head? ≠ some '(') (limits : Limits) (nesting : Nat) :
    valueAt? limits nesting text = scalarAt? limits text := by
  rw [valueAt?]
  rintro _ rest _ rfl
  exact plain rfl

/-- Where no parenthesis is left to open, none is read. -/
theorem valueAt?_zero (limits : Limits) (text : List Char) :
    valueAt? limits 0 ('(' :: text) = none := by
  have scalar : valueAt? limits 0 ('(' :: text) = scalarAt? limits ('(' :: text) := by
    rw [valueAt?]
    rintro _ _ ⟨⟩
  rw [scalar, scalarAt?, wordAt?_eq_none (by simp), intAt?_eq_none (by simp),
    strAt?_eq_none (by simp)]
  rfl

end Expression

end LexiconCompiler.Source
