import LexiconCompiler.Proofs.Name.Characters
import Mathlib.Data.List.TakeWhile

/-!
# Words one by one

A word is the longest one at its place. This is a condition on the word and on the next
character alone, stated as `Ends`, and it holds of one word only: `firstWord_eq_some_iff`.
So a character that is dropped parts a text into two whose words have nothing to do with
each other.
-/

namespace LexiconCompiler.Name

variable {text word rest : List Char} {c : Char}

/-! ## The first word -/

/-- A word and what may follow it, so that the word is the longest one at its place. -/
inductive Ends : (word rest : List Char) → Prop where
  | smalls {c : Char} {tail rest : List Char} (all : ∀ d ∈ c :: tail, isSmallOrDigit d = true)
      (stops : ∀ d ∈ rest.head?, isSmallOrDigit d = false) : Ends (c :: tail) rest
  | raised {c next : Char} {tail rest : List Char} (capital : isCapital c = true)
      (all : ∀ d ∈ next :: tail, isSmallOrDigit d = true)
      (stops : ∀ d ∈ rest.head?, isSmallOrDigit d = false) : Ends (c :: next :: tail) rest
  | capitals {c : Char} {tail rest : List Char} (all : ∀ d ∈ c :: tail, isCapital d = true)
      (stops : ∀ d ∈ rest.head?, isCapital d = false)
      (alone : tail = [] → ∀ d ∈ rest.head?, isSmallOrDigit d = false) : Ends (c :: tail) rest

theorem eq_false_of_mem_head?_dropWhile {test : Char → Bool} :
    ∀ d ∈ (text.dropWhile test).head?, test d = false := by
  intro d first
  have stopped := List.head?_dropWhile_not test text
  rw [Option.mem_def] at first
  rwa [first] at stopped

theorem dropWhile_of_takeWhile_eq_nil {test : Char → Bool} (none : text.takeWhile test = []) :
    text.dropWhile test = text := by
  have whole := List.takeWhile_append_dropWhile (p := test) (l := text)
  rwa [none, List.nil_append] at whole

theorem ends_of_firstWord (found : firstWord text = some (word, rest)) : Ends word rest := by
  cases text with
  | nil => cases found
  | cons c text =>
      simp only [firstWord] at found
      split at found
      · rename_i small
        cases found
        exact .smalls (List.forall_mem_cons.mpr ⟨small, fun _ => List.mem_takeWhile_imp⟩)
          eq_false_of_mem_head?_dropWhile
      · split at found
        · rename_i capital
          split at found
          · rename_i none
            cases found
            refine .capitals (List.forall_mem_cons.mpr ⟨capital, fun _ => List.mem_takeWhile_imp⟩)
              eq_false_of_mem_head?_dropWhile ?_
            intro alone
            rw [dropWhile_of_takeWhile_eq_nil alone, ← dropWhile_of_takeWhile_eq_nil none]
            exact eq_false_of_mem_head?_dropWhile
          · rename_i some
            cases found
            have smalls : ∀ d ∈ text.takeWhile isSmallOrDigit, isSmallOrDigit d = true :=
              fun _ => List.mem_takeWhile_imp
            cases shown : text.takeWhile isSmallOrDigit with
            | nil => exact absurd shown some
            | cons next tail =>
                rw [shown] at smalls
                exact .raised capital smalls eq_false_of_mem_head?_dropWhile
        · cases found

theorem isWordChar_of_firstWord_eq_none (absent : firstWord (c :: text) = none) :
    isWordChar c = false := by
  simp only [firstWord] at absent
  split at absent
  · cases absent
  · rename_i small
    split at absent
    · split at absent <;> cases absent
    · rename_i capital
      simp [isWordChar, small, capital]

theorem firstWord_of_not_isWordChar (dropped : isWordChar c = false) :
    firstWord (c :: text) = none := by
  simp [firstWord, isSmallOrDigit_of_not_isWordChar dropped, isCapital_of_not_isWordChar dropped]

/-! ## One word at each place -/

theorem takeWhile_eq_nil_of_stops {test : Char → Bool}
    (stops : ∀ d ∈ rest.head?, test d = false) : rest.takeWhile test = [] := by
  cases rest with
  | nil => rfl
  | cons d rest => exact List.takeWhile_cons_of_neg (by simp [stops d rfl])

theorem takeWhile_append_of_stops {test : Char → Bool} (all : ∀ d ∈ word, test d = true)
    (stops : ∀ d ∈ rest.head?, test d = false) : (word ++ rest).takeWhile test = word := by
  rw [List.takeWhile_append_of_pos all, takeWhile_eq_nil_of_stops stops, List.append_nil]

theorem dropWhile_append_of_stops {test : Char → Bool} (all : ∀ d ∈ word, test d = true)
    (stops : ∀ d ∈ rest.head?, test d = false) : (word ++ rest).dropWhile test = rest := by
  rw [List.dropWhile_append_of_pos all]
  exact dropWhile_of_takeWhile_eq_nil (takeWhile_eq_nil_of_stops stops)

/-- A word that is the longest one at its place comes first. -/
theorem Ends.firstWord (ends : Ends word rest) :
    firstWord (word ++ rest) = some (word, rest) := by
  cases ends with
  | @smalls c tail rest all stops =>
      obtain ⟨first, others⟩ := List.forall_mem_cons.mp all
      simp [Name.firstWord, first, takeWhile_append_of_stops others stops,
        dropWhile_append_of_stops others stops]
  | @raised c next tail rest capital all stops =>
      have taken := takeWhile_append_of_stops all stops
      have left := dropWhile_append_of_stops all stops
      rw [List.cons_append] at taken left
      simp [Name.firstWord, isSmallOrDigit_of_isCapital capital, capital, taken, left]
  | @capitals c tail rest all stops alone =>
      obtain ⟨first, others⟩ := List.forall_mem_cons.mp all
      have none : (tail ++ rest).takeWhile isSmallOrDigit = [] := by
        apply takeWhile_eq_nil_of_stops
        cases tail with
        | nil => exact alone rfl
        | cons next tail =>
            intro d second
            cases second
            exact isSmallOrDigit_of_isCapital (others next List.mem_cons_self)
      simp [Name.firstWord, isSmallOrDigit_of_isCapital first, first, none,
        takeWhile_append_of_stops others stops, dropWhile_append_of_stops others stops]

theorem firstWord_eq_some_iff :
    firstWord text = some (word, rest) ↔ word ++ rest = text ∧ Ends word rest := by
  constructor
  · intro found
    exact ⟨append_eq_of_firstWord found, ends_of_firstWord found⟩
  · rintro ⟨rfl, ends⟩
    exact ends.firstWord

theorem Ends.wordsOf (ends : Ends word rest) : wordsOf (word ++ rest) = word :: wordsOf rest :=
  wordsOf_of_firstWord ends.firstWord

theorem Ends.wordsOf_alone (ends : Ends word []) : Name.wordsOf word = [word] := by
  have alone := ends.wordsOf
  rwa [List.append_nil, wordsOf_nil] at alone

theorem wordsOf_cons_of_not_isWordChar (dropped : isWordChar c = false) :
    wordsOf (c :: text) = wordsOf text :=
  wordsOf_cons_of_firstWord (firstWord_of_not_isWordChar dropped)

/-! ## Parts of a text -/

/-- What follows a word may be followed by a character that is dropped. -/
theorem Ends.append (ends : Ends word rest) (dropped : isWordChar c = false)
    (later : List Char) : Ends word (rest ++ c :: later) := by
  have keeps : ∀ {test : Char → Bool}, test c = false → (∀ d ∈ rest.head?, test d = false) →
      ∀ d ∈ (rest ++ c :: later).head?, test d = false := by
    intro test failed stops d first
    cases rest with
    | nil =>
        cases first
        exact failed
    | cons e rest => exact stops d first
  have notSmall := isSmallOrDigit_of_not_isWordChar dropped
  have notCapital := isCapital_of_not_isWordChar dropped
  cases ends with
  | smalls all stops => exact .smalls all (keeps notSmall stops)
  | raised capital all stops => exact .raised capital all (keeps notSmall stops)
  | capitals all stops alone =>
      exact .capitals all (keeps notCapital stops) fun single => keeps notSmall (alone single)

/-- A character that is dropped parts the words before it from those behind it. -/
theorem wordsOf_append_cons (dropped : isWordChar c = false) (text later : List Char) :
    wordsOf (text ++ c :: later) = wordsOf text ++ wordsOf later := by
  induction text using wordsOf.induct with
  | case1 text word rest found ih =>
      have here := ((ends_of_firstWord found).append dropped later).wordsOf
      rw [← List.append_assoc, append_eq_of_firstWord found] at here
      rw [here, ih, wordsOf_of_firstWord found, List.cons_append]
  | case2 => rw [List.nil_append, wordsOf_cons_of_not_isWordChar dropped, wordsOf_nil,
      List.nil_append]
  | case3 d rest absent ih =>
      have skipped := isWordChar_of_firstWord_eq_none absent
      rw [List.cons_append, wordsOf_cons_of_not_isWordChar skipped, ih,
        wordsOf_cons_of_not_isWordChar skipped]

/-- Words leave out what is no letter and no digit, and nothing else. -/
theorem flatten_wordsOf (text : List Char) : (wordsOf text).flatten = text.filter isWordChar := by
  induction text using wordsOf.induct with
  | case1 text word rest found ih =>
      have kept : word.filter isWordChar = word :=
        List.filter_eq_self.mpr fun _ member => isWordChar_of_mem_firstWord found member
      rw [wordsOf_of_firstWord found, List.flatten_cons, ih, ← append_eq_of_firstWord found,
        List.filter_append, kept]
  | case2 => simp
  | case3 d rest absent ih =>
      have skipped := isWordChar_of_firstWord_eq_none absent
      rw [wordsOf_cons_of_not_isWordChar skipped, ih, List.filter_cons_of_neg (by simp [skipped])]

end LexiconCompiler.Name
