import LexiconCompiler.Proofs.Source.Lexing
import LexiconCompiler.Text.Hexadecimal

/-!
# The values of strings

A string goes on to the first closing quotes before which no backslash stands. What is
between the quotes is read escape by escape, by the rules of Python, and gives a sequence of
code points. An escape may give any code point, so the value of a string may hold
surrogates, which are no characters.
-/

namespace LexiconCompiler.Source

/-- The three quotes that begin and end a long string. -/
def longQuotes : List Char := ['"', '"', '"']

/-- What stands before the first closing quotes, and what is left behind them. A backslash
takes the character after it along. -/
def quoted? (closing : List Char) : List Char → Option (List Char × List Char)
  | [] => none
  | '\\' :: c :: rest =>
      (quoted? closing rest).map fun read => ('\\' :: c :: read.1, read.2)
  | c :: rest =>
      if closing <+: c :: rest then some ([], (c :: rest).drop closing.length)
      else (quoted? closing rest).map fun read => (c :: read.1, read.2)

/-- The contents of the string at the start of a text, and what is left behind the string.
One quote begins a string that stays on its line; one that an escape takes on to the next
line is left out. -/
def stringAt? : List Char → Option (List Char × List Char)
  | '"' :: '"' :: '"' :: rest => quoted? longQuotes rest
  | '"' :: rest => (quoted? ['"'] rest).filter fun read => read.1.all fun c => !endsLine c
  | _ => none

/-! ## Escapes -/

/-- What a backslash and the character behind it stand for. -/
inductive Escape where
  /-- Code points of their own. -/
  | codes (codes : List Nat)
  /-- One code point, which so many hexadecimal digits give. -/
  | digits (count : Nat)
  deriving DecidableEq, Repr

/-- The escape of a letter. A letter without a meaning keeps its backslash. Escapes by
octal digits and by the names of characters are left out. -/
def Escape.of? (letter : Char) : Option Escape :=
  match letter with
  | '\n' => some (codes [])
  | '\\' => some (codes [0x5C])
  | '\'' => some (codes [0x27])
  | '"' => some (codes [0x22])
  | 'a' => some (codes [0x07])
  | 'b' => some (codes [0x08])
  | 'f' => some (codes [0x0C])
  | 'n' => some (codes [0x0A])
  | 'r' => some (codes [0x0D])
  | 't' => some (codes [0x09])
  | 'v' => some (codes [0x0B])
  | 'x' => some (digits 2)
  | 'u' => some (digits 4)
  | 'U' => some (digits 8)
  | 'N' => none
  | letter => if '0' ≤ letter ∧ letter ≤ '7' then none else some (codes [0x5C, letter.toNat])

/-- How far the reading of an escape has come. -/
inductive EscapeState where
  | between
  | escape
  /-- With so many digits to come after a value. -/
  | digits (owed value : Nat)
  deriving DecidableEq, Repr

/-- The code points that contents give from some state on. -/
def unescapeFrom : EscapeState → List Char → Option (List Nat)
  | .between, [] => some []
  | _, [] => none
  | .between, c :: rest =>
      if c = '\\' then unescapeFrom .escape rest
      else (unescapeFrom .between rest).map (c.toNat :: ·)
  | .escape, c :: rest =>
      match Escape.of? c with
      | some (.codes codes) => (unescapeFrom .between rest).map (codes ++ ·)
      | some (.digits count) => unescapeFrom (.digits count 0) rest
      | none => none
  | .digits owed value, c :: rest =>
      match Text.hexValue? c with
      | none => none
      | some digit =>
          let value := 16 * value + digit
          if 1 < owed then unescapeFrom (.digits (owed - 1) value) rest
          else if value < 0x110000 then (unescapeFrom .between rest).map (value :: ·)
          else none

/-- The code points that the contents of a string give. -/
def unescape (contents : List Char) : Option (List Nat) :=
  unescapeFrom .between contents

/-- The code points of a text. -/
def codePoints (text : List Char) : List Nat :=
  text.map Char.toNat

example : stringAt? "\"a\\\"b\" + c".toList = some ("a\\\"b".toList, " + c".toList) := by
  decide

example : unescape "\\x41\\ud800\\q\\".toList = none := by decide

example : unescape "\\x41\\ud800\\q".toList = some [0x41, 0xD800, 0x5C, 0x71] := by decide

/-! ## Contents in front of others -/

variable {closing rest : List Char}

/-- Contents are passed over, whatever stands behind them. -/
def Passed (closing contents rest : List Char) : Prop :=
  quoted? closing (contents ++ rest) =
    (quoted? closing rest).map fun read => (contents ++ read.1, read.2)

theorem Passed.nil (closing rest : List Char) : Passed closing [] rest := by
  rw [Passed, List.nil_append]
  exact Option.map_id'.symm

theorem Passed.append {first second : List Char} (early : Passed closing first (second ++ rest))
    (late : Passed closing second rest) : Passed closing (first ++ second) rest := by
  rw [Passed, List.append_assoc, early, late, Option.map_map]
  simp [Function.comp_def]

theorem passed_escape (closing : List Char) (c : Char) (rest : List Char) :
    Passed closing ['\\', c] rest := rfl

theorem passed_singleton {c : Char} (noEscape : c ≠ '\\') (opens : ¬ closing <+: c :: rest) :
    Passed closing [c] rest := by
  rw [Passed, List.singleton_append, quoted?]
  · rw [if_neg opens]
    rfl
  · intro _ _ equal
    exact absurd equal noEscape

theorem quoted?_closing {first : Char} (noEscape : first ≠ '\\') (closing rest : List Char) :
    quoted? (first :: closing) (first :: closing ++ rest) = some ([], rest) := by
  rw [List.cons_append, quoted?]
  · rw [← List.cons_append, if_pos (List.prefix_append _ _), List.drop_left]
  · intro _ _ equal
    exact absurd equal noEscape

/-- Code points come out of contents one after another, whatever stands behind them. -/
def Gives (contents : List Char) (codes : List Nat) : Prop :=
  ∀ rest, unescape (contents ++ rest) = (unescape rest).map (codes ++ ·)

theorem Gives.unescape_eq {contents : List Char} {codes : List Nat}
    (gives : Gives contents codes) : unescape contents = some codes := by
  have alone := gives []
  rw [List.append_nil] at alone
  rw [alone]
  exact congrArg some (List.append_nil codes)

theorem Gives.nil : Gives [] [] := fun _ => Option.map_id'.symm

theorem Gives.append {first second : List Char} {codes others : List Nat}
    (early : Gives first codes) (late : Gives second others) :
    Gives (first ++ second) (codes ++ others) := by
  intro rest
  rw [List.append_assoc, early, late, Option.map_map]
  simp [Function.comp_def]

theorem Gives.flatMap {α : Type} {items : List α} {image : α → List Char} {codes : α → List Nat}
    (each : ∀ item ∈ items, Gives (image item) (codes item)) :
    Gives (items.flatMap image) (items.flatMap codes) := by
  induction items with
  | nil => exact .nil
  | cons item items ih =>
      exact (each item List.mem_cons_self).append
        (ih fun other member => each other (List.mem_cons_of_mem _ member))

theorem gives_singleton {c : Char} (noEscape : c ≠ '\\') : Gives [c] [c.toNat] := by
  intro rest
  rw [List.singleton_append, unescape, unescapeFrom, if_neg noEscape]
  rfl

theorem gives_escape {letter : Char} {codes : List Nat}
    (known : Escape.of? letter = some (.codes codes)) : Gives ['\\', letter] codes := by
  intro rest
  simp only [List.cons_append, List.nil_append, unescape, unescapeFrom, if_true, known]

/-- Four digits give their number, which no limit keeps out. -/
theorem gives_unit {unit : Nat} (basic : unit < 0x10000) :
    Gives ('\\' :: 'u' :: Text.hexDigits 4 unit) [unit] := by
  obtain ⟨first, second, third, fourth, a, b, c, d, shown, one, two, three, four, whole⟩ :=
    Text.exists_hexDigits_four basic
  have known : Escape.of? 'u' = some (.digits 4) := rfl
  intro rest
  rw [shown]
  simp only [List.cons_append, List.nil_append, unescape, unescapeFrom, if_true, known,
    one, two, three, four]
  rw [if_pos (by decide), if_pos (by decide), if_pos (by decide), if_neg (by decide),
    if_pos (by omega), whole]

end LexiconCompiler.Source
