import LexiconCompiler.Json.Reader
import LexiconCompiler.Json.Writer
import LexiconCompiler.Proofs.Traversal

/-!
# Strings in a text

A string is spelled by characters and escapes up to its closing quote. The reader accepts
exactly these spellings and leaves what comes after the quote. The spelling that is written
for a text reads back as that text.
-/

namespace LexiconCompiler.Json

open Traversal

variable {opening place text rest used : List Char} {pieces : List Piece}

/-- A text spells the parts of a string, with the closing quote at its end. -/
inductive Spells : List Char → List Piece → Prop where
  | close : Spells ['"'] []
  | plain {c : Char} {used : List Char} {pieces : List Piece} (notQuote : c ≠ '"')
      (notBackslash : c ≠ '\\') (printed : ¬ c.toNat < 0x20) (later : Spells used pieces) :
      Spells (c :: used) (.plain c :: pieces)
  | escape {letter meaning : Char} {used : List Char} {pieces : List Piece}
      (known : escapedChar? letter = some meaning) (later : Spells used pieces) :
      Spells ('\\' :: letter :: used) (.plain meaning :: pieces)
  | unit {first second third fourth : Char} {a b c d : Nat} {used : List Char}
      {pieces : List Piece} (firstDigit : Text.hexValue? first = some a)
      (secondDigit : Text.hexValue? second = some b) (thirdDigit : Text.hexValue? third = some c)
      (fourthDigit : Text.hexValue? fourth = some d) (later : Spells used pieces) :
      Spells ('\\' :: 'u' :: first :: second :: third :: fourth :: used)
        (.unit (16 * (16 * (16 * (16 * 0 + a) + b) + c) + d) :: pieces)

/-! ## Reading -/

theorem withPiece_eq_ok_iff {piece : Piece} {result : Except Refusal (Parsed (List Piece))} :
    withPiece piece result = .ok (pieces, rest) ↔
      ∃ others, result = .ok (others, rest) ∧ pieces = piece :: others := by
  cases result with
  | error refusal =>
      constructor
      · rintro ⟨⟩
      · rintro ⟨others, impossible, _⟩
        cases impossible
  | ok found =>
      constructor
      · rintro ⟨⟩
        exact ⟨found.1, rfl, rfl⟩
      · rintro ⟨others, ⟨⟩, rfl⟩
        rfl

theorem Spells.ne_nil (spells : Spells used pieces) : used ≠ [] := by
  cases spells <;> exact List.cons_ne_nil _ _

/-- What is spelled is read, whatever comes after it. -/
theorem readPieces_of_spells (spells : Spells used pieces) (opening rest : List Char) :
    readPieces opening .between (used ++ rest) = .ok (pieces, rest) := by
  induction spells with
  | close => rfl
  | plain notQuote notBackslash printed later ih =>
      rw [List.cons_append, readPieces, if_neg notQuote, if_neg notBackslash, if_neg printed, ih]
      rfl
  | @escape letter meaning used pieces known later ih =>
      have notUnit : letter ≠ 'u' := by
        rintro rfl
        cases known
      rw [List.cons_append, List.cons_append, readPieces, if_neg (by decide), if_pos rfl,
        readPieces, if_neg notUnit]
      simp only [known, ih]
      rfl
  | @unit first second third fourth a b c d used pieces firstDigit secondDigit thirdDigit
      fourthDigit later ih =>
      have more : ¬ (used ++ rest).isEmpty = true := by simp [later.ne_nil]
      simp only [List.cons_append]
      rw [readPieces, if_neg (by decide), if_pos rfl, readPieces, if_pos rfl]
      simp only [readPieces, firstDigit, secondDigit, thirdDigit, fourthDigit]
      rw [if_pos (by decide), if_pos (by decide), if_pos (by decide), if_neg (by decide),
        if_neg more, ih]
      rfl

/-- One digit of a code unit is read. Others follow, or the code unit is complete. -/
theorem exists_digit_of_readPieces {owed value : Nat}
    (parsed : readPieces opening (.codeUnit place owed value) text = .ok (pieces, rest)) :
    ∃ c after digit, text = c :: after ∧ Text.hexValue? c = some digit ∧
      if 1 < owed then
        readPieces opening (.codeUnit place (owed - 1) (16 * value + digit)) after =
          .ok (pieces, rest)
      else
        ∃ others, readPieces opening .between after = .ok (others, rest) ∧
          pieces = .unit (16 * value + digit) :: others := by
  cases text with
  | nil => cases parsed
  | cons c after =>
      rw [readPieces] at parsed
      split at parsed
      · cases parsed
      · rename_i digit known
        refine ⟨c, after, digit, rfl, known, ?_⟩
        dsimp only at parsed
        split at parsed
        · rename_i more
          rw [if_pos more]
          exact parsed
        · rename_i last
          rw [if_neg last]
          split at parsed
          · cases parsed
          · exact withPiece_eq_ok_iff.mp parsed

/-- What is read is spelled by the text that is gone. -/
theorem exists_spells (opening text : List Char) {pieces : List Piece}
    (parsed : readPieces opening .between text = .ok (pieces, rest)) :
    ∃ used, text = used ++ rest ∧ Spells used pieces := by
  cases text with
  | nil => cases parsed
  | cons c after =>
      rw [readPieces] at parsed
      split at parsed
      · rename_i quote
        cases parsed
        exact ⟨['"'], by rw [quote]; rfl, .close⟩
      · rename_i notQuote
        split at parsed
        · rename_i backslash
          subst backslash
          cases after with
          | nil => cases parsed
          | cons letter after =>
              rw [readPieces] at parsed
              split at parsed
              · rename_i unit
                subst unit
                obtain ⟨first, after, a, rfl, firstDigit, parsed⟩ :=
                  exists_digit_of_readPieces parsed
                obtain ⟨second, after, b, rfl, secondDigit, parsed⟩ :=
                  exists_digit_of_readPieces parsed
                obtain ⟨third, after, c, rfl, thirdDigit, parsed⟩ :=
                  exists_digit_of_readPieces parsed
                obtain ⟨fourth, after, d, rfl, fourthDigit, others, later, rfl⟩ :=
                  exists_digit_of_readPieces parsed
                obtain ⟨used, rfl, spells⟩ := exists_spells opening after later
                exact ⟨_, rfl, .unit firstDigit secondDigit thirdDigit fourthDigit spells⟩
              · split at parsed
                · rename_i meaning known
                  obtain ⟨others, later, rfl⟩ := withPiece_eq_ok_iff.mp parsed
                  obtain ⟨used, rfl, spells⟩ := exists_spells opening after later
                  exact ⟨_, rfl, .escape known spells⟩
                · cases parsed
        · rename_i notBackslash
          split at parsed
          · cases parsed
          · rename_i printed
            obtain ⟨others, later, rfl⟩ := withPiece_eq_ok_iff.mp parsed
            obtain ⟨used, rfl, spells⟩ := exists_spells opening after later
            exact ⟨_, rfl, .plain notQuote notBackslash printed spells⟩
  termination_by text.length

/-- A string is read from the text up to its closing quote, whatever comes after it. -/
theorem readString_frame {string : String}
    (parsed : readString opening text = .ok (string, rest)) :
    ∃ used, text = used ++ rest ∧ ∀ opening rest,
      readString opening (used ++ rest) = .ok (string, rest) := by
  obtain ⟨⟨pieces, left⟩, pieced, equal⟩ := bind_eq_ok_iff.mp parsed
  cases equal
  obtain ⟨used, split, spells⟩ := exists_spells opening text pieced
  refine ⟨used, split, ?_⟩
  intro opening rest
  rw [readString, readPieces_of_spells spells]
  rfl

/-! ## Writing -/

/-- The characters that have a short escape, and the letters of the escapes. -/
def shortEscapes : List (Char × Char) :=
  [('"', '"'), ('\\', '\\'), ('\n', 'n'), ('\r', 'r'), ('\t', 't'), ('\x08', 'b'),
    ('\x0c', 'f')]

/-- A character is written by its short escape, as it is, or by its code units. -/
theorem writtenChar_cases (c : Char) :
    (∃ letter, (c, letter) ∈ shortEscapes ∧ writtenChar c = ['\\', letter]) ∨
      ((∀ entry ∈ shortEscapes, c ≠ entry.1) ∧ (' ' ≤ c ∧ c ≤ '~') ∧ writtenChar c = [c]) ∨
      writtenChar c =
        (Text.codeUnits c).flatMap fun unit => '\\' :: 'u' :: Text.hexDigits 4 unit := by
  rw [writtenChar]
  iterate 7
    split
    · rename_i same
      exact .inl ⟨_, by rw [same]; decide, rfl⟩
  split
  · rename_i printable
    exact .inr (.inl ⟨by simp [shortEscapes, *], printable, rfl⟩)
  · exact .inr (.inr rfl)

/-- The four digits of a code unit read back as the code unit. -/
theorem Spells.written_unit {unit : Nat} (basic : unit < 0x10000) (later : Spells used pieces) :
    Spells ('\\' :: 'u' :: Text.hexDigits 4 unit ++ used) (.unit unit :: pieces) := by
  obtain ⟨first, second, third, fourth, a, b, c, d, shown, one, two, three, four, rfl⟩ :=
    Text.exists_hexDigits_four basic
  rw [shown]
  exact .unit one two three four later

/-- A character stands for itself or is written by its code units. -/
theorem Spells.written (c : Char) (later : Spells used pieces) :
    Spells (writtenChar c ++ used) (.plain c :: pieces) ∨
      Spells (writtenChar c ++ used) ((Text.codeUnits c).map .unit ++ pieces) := by
  have meanings : ∀ entry ∈ shortEscapes, escapedChar? entry.2 = some entry.1 := by
    simp [shortEscapes, escapedChar?]
  rcases writtenChar_cases c with ⟨letter, known, written⟩ | ⟨other, printable, written⟩ | written
  · rw [written]
    exact .inl (.escape (meanings _ known) later)
  · rw [written]
    have noQuote : c ≠ '"' := other ('"', '"') (by decide)
    have noBackslash : c ≠ '\\' := other ('\\', '\\') (by decide)
    exact .inl (.plain noQuote noBackslash (Nat.not_lt.mpr printable.1) later)
  · right
    rw [written]
    rcases Text.codeUnits_cases c with
      ⟨single, basic, _⟩ | ⟨high, low, pair, basicHigh, basicLow, _⟩
    · rw [single]
      exact later.written_unit basic
    · rw [pair]
      exact (later.written_unit basicLow).written_unit basicHigh

/-- The code units of a character are joined to the character. -/
theorem joinPieces_codeUnits (c : Char) (pieces : List Piece) :
    joinPieces ((Text.codeUnits c).map .unit ++ pieces) = c :: joinPieces pieces := by
  rcases Text.codeUnits_cases c with
    ⟨single, _, notHigh⟩ | ⟨high, low, pair, _, _, isHigh, isLow, whole⟩
  · rw [single]
    rcases pieces with _ | ⟨plain | unit, pieces⟩
    · simp [joinPieces]
    · simp [joinPieces]
    · simp [joinPieces, notHigh]
  · simp [pair, joinPieces, isHigh, isLow, whole]

/-- What is written for a text spells the text. -/
theorem exists_spells_written (text : List Char) :
    ∃ pieces, Spells (text.flatMap writtenChar ++ ['"']) pieces ∧ joinPieces pieces = text := by
  induction text with
  | nil => exact ⟨[], .close, rfl⟩
  | cons c text ih =>
      obtain ⟨pieces, spells, joined⟩ := ih
      rw [List.flatMap_cons, List.append_assoc]
      rcases spells.written c with plain | units
      · exact ⟨_, plain, congrArg (c :: ·) joined⟩
      · exact ⟨_, units, by rw [joinPieces_codeUnits, joined]⟩

/-- A string that is written reads back. -/
theorem readString_written (string : String) (opening rest : List Char) :
    readString opening (string.toList.flatMap writtenChar ++ ['"'] ++ rest) =
      .ok (string, rest) := by
  obtain ⟨pieces, spells, joined⟩ := exists_spells_written string.toList
  rw [readString, readPieces_of_spells spells]
  simp only [bind, Except.bind, joined, String.ofList_toList]

end LexiconCompiler.Json
