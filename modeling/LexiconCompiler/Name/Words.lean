/-!
# The words of a name

Names are written in many casings. This module cuts a name into its words whatever
the casing: a word is an optional capital followed by small letters or digits, or a
run of capitals, the longest possible at each place. Every other character only
separates words. Letters and digits here are the ASCII ones, so that the words of a
name can stand in file names and constants.
-/

namespace LexiconCompiler.Name

/-- Whether a character is a capital letter of ASCII. -/
def isCapital (c : Char) : Bool :=
  decide ('A' ≤ c ∧ c ≤ 'Z')

/-- Whether a character is a small letter or a digit of ASCII. -/
def isSmallOrDigit (c : Char) : Bool :=
  decide ('a' ≤ c ∧ c ≤ 'z') || decide ('0' ≤ c ∧ c ≤ '9')

/-- The word at the start of a text and what follows it, if a word starts there. -/
def firstWord : List Char → Option (List Char × List Char)
  | [] => none
  | c :: rest =>
      if isSmallOrDigit c then
        some (c :: rest.takeWhile isSmallOrDigit, rest.dropWhile isSmallOrDigit)
      else if isCapital c then
        match rest.takeWhile isSmallOrDigit with
        | [] => some (c :: rest.takeWhile isCapital, rest.dropWhile isCapital)
        | tail => some (c :: tail, rest.dropWhile isSmallOrDigit)
      else none

/-- A word takes at least one character. -/
theorem length_lt_of_firstWord {text word rest : List Char}
    (found : firstWord text = some (word, rest)) : rest.length < text.length := by
  cases text with
  | nil => simp [firstWord] at found
  | cons c tail =>
      have small := (List.dropWhile_sublist isSmallOrDigit (l := tail)).length_le
      have capital := (List.dropWhile_sublist isCapital (l := tail)).length_le
      simp only [firstWord] at found
      split at found
      · cases found
        simp only [List.length_cons]
        omega
      · split at found
        · split at found <;>
            · cases found
              simp only [List.length_cons]
              omega
        · cases found

/-- The words of a text, from left to right. -/
def wordsOf (text : List Char) : List (List Char) :=
  match _ : firstWord text with
  | some (word, rest) => word :: wordsOf rest
  | none =>
      match text with
      | [] => []
      | _ :: rest => wordsOf rest
  termination_by text.length
  decreasing_by
    · exact length_lt_of_firstWord (by assumption)
    · simp

/-- The words of a name, from left to right. -/
def words (name : String) : List String :=
  (wordsOf name.toList).map String.ofList

@[simp] theorem wordsOf_nil : wordsOf [] = [] := by
  rw [wordsOf]
  rfl

/-- The first word of a text comes first, and the words of what follows it follow. -/
theorem wordsOf_of_firstWord {text word rest : List Char}
    (found : firstWord text = some (word, rest)) : wordsOf text = word :: wordsOf rest := by
  rw [wordsOf]
  split
  · simp_all
  · simp_all

/-- A character at which no word starts is passed over. -/
theorem wordsOf_cons_of_firstWord {c : Char} {rest : List Char}
    (absent : firstWord (c :: rest) = none) : wordsOf (c :: rest) = wordsOf rest := by
  rw [wordsOf]
  split
  · simp_all
  · rfl

/-- The first word and what follows it are the whole text. -/
theorem append_eq_of_firstWord {text word rest : List Char}
    (found : firstWord text = some (word, rest)) : word ++ rest = text := by
  cases text with
  | nil => simp [firstWord] at found
  | cons c tail =>
      simp only [firstWord] at found
      split at found
      · cases found
        simp
      · split at found
        · split at found
          · cases found
            simp
          · rename_i tailWord _
            cases found
            simp
        · cases found

end LexiconCompiler.Name
