import LexiconCompiler.Proofs.Json.Numerals
import LexiconCompiler.Proofs.Json.Strings

/-!
# What a reader takes

A reader takes the start of a text and leaves the rest. What it takes and the value of it do
not depend on the rest, as long as the rest ends the value. This holds for strings, words
and numbers, and for containers because it holds for the values inside them.
-/

namespace LexiconCompiler.Json

open Traversal

variable {α : Type} {text rest blanks used : List Char}

/-! ## Layout -/

/-- A text does not start with layout. -/
def Unlaid (text : List Char) : Prop :=
  ∀ c ∈ text.head?, isLayout c = false

/-- No layout is layout, and so is a blank. -/
theorem isLayout_of_mem_nil : ∀ c ∈ ([] : List Char), isLayout c = true := by
  simp

theorem isLayout_of_mem_blank : ∀ c ∈ [' '], isLayout c = true := by
  simp [isLayout]

theorem unlaid_cons {c : Char} : Unlaid (c :: rest) ↔ isLayout c = false := by
  simp [Unlaid]

theorem unlaid_skipLayout (text : List Char) : Unlaid (skipLayout text) := by
  intro c head
  have stops := List.head?_dropWhile_not isLayout text
  rw [← skipLayout, Option.mem_def.mp head] at stops
  simpa using stops

theorem skipLayout_of_unlaid (unlaid : Unlaid rest) : skipLayout rest = rest := by
  cases rest with
  | nil => rfl
  | cons c rest => exact List.dropWhile_cons_of_neg (by simp [unlaid c rfl])

theorem length_skipLayout_le (text : List Char) : (skipLayout text).length ≤ text.length :=
  (List.dropWhile_suffix isLayout).length_le

theorem skipLayout_append (layout : ∀ c ∈ blanks, isLayout c = true) (unlaid : Unlaid rest) :
    skipLayout (blanks ++ rest) = rest := by
  rw [skipLayout, List.dropWhile_append_of_pos layout]
  exact skipLayout_of_unlaid unlaid

theorem exists_layout_append (text : List Char) :
    ∃ blanks, (∀ c ∈ blanks, isLayout c = true) ∧ text = blanks ++ skipLayout text :=
  ⟨text.takeWhile isLayout, fun c => List.all_eq_true.mp List.all_takeWhile c,
    List.takeWhile_append_dropWhile.symm⟩

/-- Layout before a delimiter ends a value as the delimiter does. -/
theorem ended_append (layout : ∀ c ∈ blanks, isLayout c = true) (ended : Ended rest) :
    Ended (blanks ++ rest) := by
  cases blanks with
  | nil => exact ended
  | cons c blanks =>
      rw [List.cons_append, ended_cons, isDelimiter, layout c List.mem_cons_self]
      rfl

theorem Unlaid.append (unlaid : Unlaid used) (any : used ≠ []) : Unlaid (used ++ rest) := by
  cases used with
  | nil => exact absurd rfl any
  | cons c used => exact unlaid

theorem StartsPlain.append (starts : StartsPlain used) : StartsPlain (used ++ rest) := by
  obtain ⟨c, after, rfl, plain⟩ := starts
  exact ⟨c, after ++ rest, rfl, plain⟩

theorem StartsPlain.unlaid (starts : StartsPlain text) : Unlaid text := by
  obtain ⟨c, after, rfl, plain⟩ := starts
  simp only [isSpecial, isDelimiter, Bool.or_eq_false_iff] at plain
  rw [unlaid_cons, plain.1.1.1.1.1.1]

theorem Unlaid.of_append (unlaid : Unlaid (used ++ rest)) : Unlaid used := by
  cases used with
  | nil => simp [Unlaid]
  | cons c used => exact unlaid

/-! ## Taking the start of a text -/

/-- A reader takes a text and gives its value, whatever comes after it and ends it. -/
def Takes (read : List Char → Except Refusal (Parsed α)) (used : List Char) (value : α) : Prop :=
  ∀ rest, Ended rest → read (used ++ rest) = .ok (value, rest)

/-- What a reader gives comes from the text that it took. -/
def Frames (read : List Char → Except Refusal (Parsed α)) : Prop :=
  ∀ text value rest, read text = .ok (value, rest) →
    ∃ used, used ≠ [] ∧ text = used ++ rest ∧ Takes read used value

/-! ## Words and numbers -/

/-- A word is found whatever comes after it. -/
theorem wordAt?_append {word : String} {value : Json} (member : (word, value) ∈ valueWords)
    (rest : List Char) : wordAt? (word.toList ++ rest) = some (value, rest) := by
  simp only [valueWords, List.mem_cons, Prod.mk.injEq, List.not_mem_nil, or_false] at member
  rcases member with ⟨rfl, rfl⟩ | ⟨rfl, rfl⟩ | ⟨rfl, rfl⟩ | ⟨rfl, rfl⟩ | ⟨rfl, rfl⟩ | ⟨rfl, rfl⟩
  all_goals rfl

theorem startsPlain_of_mem_valueWords {word : String} {value : Json}
    (member : (word, value) ∈ valueWords) : StartsPlain word.toList := by
  simp only [valueWords, List.mem_cons, Prod.mk.injEq, List.not_mem_nil, or_false] at member
  rcases member with ⟨rfl, _⟩ | ⟨rfl, _⟩ | ⟨rfl, _⟩ | ⟨rfl, _⟩ | ⟨rfl, _⟩ | ⟨rfl, _⟩
  all_goals exact ⟨_, _, rfl, by decide⟩

theorem exists_of_wordAt? {value : Json} (found : wordAt? text = some (value, rest)) :
    ∃ word, (word, value) ∈ valueWords ∧ text = word.toList ++ rest := by
  obtain ⟨⟨word, meaning⟩, member, matched⟩ := List.exists_of_findSome?_eq_some found
  dsimp only at matched
  split at matched
  · rename_i starts
    cases matched
    have split := List.prefix_iff_eq_append.mp (List.isPrefixOf_iff_prefix.mp starts)
    rw [String.length_toList] at split
    exact ⟨word, member, split.symm⟩
  · cases matched

/-- No word starts with a digit, or with a sign and a digit. -/
theorem wordAt?_eq_none {negative : Bool} {c : Char} (digit : c.isDigit = true) :
    wordAt? (Numeral.signOf negative ++ c :: rest) = none := by
  have different : c ≠ 'n' ∧ c ≠ 't' ∧ c ≠ 'f' ∧ c ≠ 'N' ∧ c ≠ 'I' ∧ c ≠ '-' := by
    refine ⟨?_, ?_, ?_, ?_, ?_, ?_⟩ <;>
      · rintro rfl
        cases digit
  obtain ⟨n, t, f, N, I, m⟩ := different
  cases negative <;>
    simp [wordAt?, valueWords, Numeral.signOf, n.symm, t.symm, f.symm, N.symm,
      I.symm, m.symm]

/-- A numeral is no word. -/
theorem wordAt?_of_numeralAt? {numeral : Numeral} (read : numeralAt? text = some numeral) :
    wordAt? text = none := by
  obtain ⟨proper, left, rfl⟩ := numeralAt?_spec read
  obtain ⟨any, all⟩ := proper.digits
  cases spelled : numeral.whole with
  | nil => exact absurd spelled any
  | cons c digits =>
      have digit := all c (by rw [spelled]; exact List.mem_cons_self)
      rw [Numeral.spelling, spelled, List.append_assoc, List.append_assoc, List.append_assoc]
      exact wordAt?_eq_none digit

theorem takes_readScalar_word {word : String} {value : Json}
    (member : (word, value) ∈ valueWords) : Takes readScalar word.toList value := by
  intro rest _
  rw [readScalar, wordAt?_append member]

/-- A number is taken with its spelling. -/
theorem takes_readScalar {numeral : Numeral} {value : Json} (proper : numeral.Proper)
    (valued : numeralValue numeral = .ok value) :
    Takes readScalar numeral.spelling value := by
  intro rest ended
  have read := proper.numeralAt? ended
  rw [readScalar, wordAt?_of_numeralAt? read, read]
  dsimp only
  rw [valued, List.drop_left]
  rfl

theorem frames_readScalar : Frames readScalar := by
  intro text value rest parsed
  rw [readScalar] at parsed
  split at parsed
  · rename_i found word
    cases parsed
    obtain ⟨used, member, split⟩ := exists_of_wordAt? word
    obtain ⟨c, after, spelled, _⟩ := startsPlain_of_mem_valueWords member
    exact ⟨used.toList, by simp [spelled], split, takes_readScalar_word member⟩
  · split at parsed
    · cases parsed
    · rename_i numeral number
      obtain ⟨meaning, valued, equal⟩ := bind_eq_ok_iff.mp parsed
      cases equal
      obtain ⟨proper, starts⟩ := numeralAt?_spec number
      have any : numeral.spelling ≠ [] := by
        simp [Numeral.spelling, proper.digits.1]
      exact ⟨numeral.spelling, any, (List.prefix_iff_eq_append.mp starts).symm,
        takes_readScalar proper valued⟩

end LexiconCompiler.Json
