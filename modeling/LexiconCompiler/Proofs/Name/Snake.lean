import LexiconCompiler.Proofs.Name.FirstWord

/-!
# Names in snake case

A name in `snake_case` keeps the words of a name up to capitals, and nothing else of it.
Words are made of letters and digits only, so they can be told from the underscores
between them. The words of such a name are the ones it was made of, in small letters, so
every casing of it is the casing of the name that it was made from.
-/

namespace LexiconCompiler.Name

/-- The words of a text in small letters. -/
def loweredWords (text : List Char) : List (List Char) :=
  (wordsOf text).map (List.map Char.toLower)

theorem map_intercalate (image : Char → Char) (separator : List Char)
    (texts : List (List Char)) :
    (separator.intercalate texts).map image =
      (separator.map image).intercalate (texts.map (List.map image)) := by
  induction texts with
  | nil => rfl
  | cons text texts ih =>
      cases texts with
      | nil => simp
      | cons next texts =>
          simp only [List.map_cons, List.intercalate_cons_cons, List.map_append] at ih ⊢
          rw [ih]

theorem mem_of_mem_intercalate {separator : List Char} {texts : List (List Char)} {c : Char}
    (member : c ∈ separator.intercalate texts) :
    c ∈ separator ∨ ∃ text ∈ texts, c ∈ text := by
  induction texts with
  | nil => simp at member
  | cons text texts ih =>
      cases texts with
      | nil =>
          rw [List.intercalate_singleton] at member
          exact .inr ⟨text, List.mem_cons_self, member⟩
      | cons next texts =>
          rw [List.intercalate_cons_cons, List.mem_append, List.mem_append] at member
          rcases member with (here | between) | later
          · exact .inr ⟨text, List.mem_cons_self, here⟩
          · exact .inl between
          · apply (ih later).imp_right
            intro ⟨other, inside, found⟩
            exact ⟨other, List.mem_cons_of_mem _ inside, found⟩

theorem snakeOf_eq (text : List Char) : snakeOf text = ['_'].intercalate (loweredWords text) :=
  map_intercalate Char.toLower ['_'] (wordsOf text)

/-- Words in small letters have letters and digits, and nothing else. -/
theorem isWordChar_of_mem_loweredWords {text word : List Char}
    (member : word ∈ loweredWords text) : word ≠ [] ∧ ∀ c ∈ word, isWordChar c = true := by
  obtain ⟨original, found, rfl⟩ := List.mem_map.mp member
  obtain ⟨nonempty, inside⟩ := isWordChar_of_mem_wordsOf found
  constructor
  · simpa using nonempty
  · intro c among
    obtain ⟨d, here, rfl⟩ := List.mem_map.mp among
    exact isWordChar_toLower (inside d here)

theorem isWordChar_of_mem_snakeOf {text : List Char} {c : Char} (member : c ∈ snakeOf text) :
    isWordChar c = true ∨ c = '_' := by
  rw [snakeOf_eq] at member
  cases mem_of_mem_intercalate member with
  | inl between => exact .inr (List.mem_singleton.mp between)
  | inr inside =>
      obtain ⟨word, found, here⟩ := inside
      exact .inl ((isWordChar_of_mem_loweredWords found).2 c here)

/-- The words can be read off a name in `snake_case`, unless there are none. -/
theorem splitOn_snakeOf {text : List Char} (any : loweredWords text ≠ []) :
    (snakeOf text).splitOn '_' = loweredWords text := by
  rw [snakeOf_eq]
  apply List.splitOn_intercalate _ _ any
  intro word member among
  cases (isWordChar_of_mem_loweredWords member).2 '_' among

theorem loweredWords_eq_nil_of_snakeOf {text : List Char} (empty : snakeOf text = []) :
    loweredWords text = [] := by
  cases same : loweredWords text with
  | nil => rfl
  | cons word words =>
      have any : loweredWords text ≠ [] := by simp [same]
      have split := splitOn_snakeOf any
      rw [empty, List.splitOn_nil] at split
      have member : [] ∈ loweredWords text := by simp [← split]
      exact absurd rfl (isWordChar_of_mem_loweredWords member).1

/-- Texts have one name in `snake_case` iff they have the same words up to capitals. -/
theorem snakeOf_inj {first second : List Char} :
    snakeOf first = snakeOf second ↔ loweredWords first = loweredWords second := by
  constructor
  · intro same
    by_cases none : snakeOf first = []
    · rw [loweredWords_eq_nil_of_snakeOf none, loweredWords_eq_nil_of_snakeOf (same ▸ none)]
    · have any : ∀ text, snakeOf text = snakeOf first → loweredWords text ≠ [] := by
        intro text equal empty
        apply none
        rw [← equal, snakeOf_eq, empty, List.intercalate_nil]
      rw [← splitOn_snakeOf (any first rfl), same, splitOn_snakeOf (any second same.symm)]
  · intro same
    rw [snakeOf_eq, snakeOf_eq, same]

theorem isSmallOrDigit_of_mem_map_toLower {word : List Char}
    (inside : ∀ c ∈ word, isWordChar c = true) :
    ∀ c ∈ word.map Char.toLower, isSmallOrDigit c = true := by
  intro c member
  obtain ⟨d, among, rfl⟩ := List.mem_map.mp member
  exact isSmallOrDigit_toLower (inside d among)

theorem isSmallOrDigit_of_mem_loweredWords {text word : List Char}
    (member : word ∈ loweredWords text) : ∀ c ∈ word, isSmallOrDigit c = true := by
  obtain ⟨original, found, rfl⟩ := List.mem_map.mp member
  exact isSmallOrDigit_of_mem_map_toLower (isWordChar_of_mem_wordsOf found).2

/-- Raising a name in `snake_case` loses nothing, since it has no capitals. -/
theorem map_toLower_screamingSnakeOf (text : List Char) :
    (screamingSnakeOf text).map Char.toLower = snakeOf text := by
  have back : ∀ c ∈ snakeOf text, c.toUpper.toLower = c := by
    intro c member
    rw [snakeOf_eq] at member
    cases mem_of_mem_intercalate member with
    | inl between =>
        rw [List.mem_singleton.mp between]
        rfl
    | inr inside =>
        obtain ⟨word, found, here⟩ := inside
        rw [toLower_toUpper ((isWordChar_of_mem_loweredWords found).2 c here)]
        exact toLower_of_isSmallOrDigit (isSmallOrDigit_of_mem_loweredWords found c here)
  rw [screamingSnakeOf, List.map_map]
  exact (List.map_congr_left back).trans (List.map_id _)

theorem screamingSnakeOf_inj {first second : List Char} :
    screamingSnakeOf first = screamingSnakeOf second ↔
      loweredWords first = loweredWords second := by
  rw [← snakeOf_inj]
  constructor
  · intro same
    rw [← map_toLower_screamingSnakeOf, same, map_toLower_screamingSnakeOf]
  · intro same
    rw [screamingSnakeOf, same, screamingSnakeOf]

/-! ## The words of the name -/

/-- Texts that are joined by underscores have the words of each of them. -/
theorem wordsOf_intercalate (texts : List (List Char)) :
    wordsOf (['_'].intercalate texts) = texts.flatMap wordsOf := by
  induction texts with
  | nil => simp
  | cons text texts ih =>
      cases texts with
      | nil => simp
      | cons next texts =>
          have dropped : isWordChar '_' = false := by decide
          rw [List.intercalate_cons_cons, List.append_assoc, List.singleton_append,
            wordsOf_append_cons dropped, ih]
          exact List.flatMap_cons.symm

theorem wordsOf_of_mem_loweredWords {text word : List Char} (member : word ∈ loweredWords text) :
    wordsOf word = [word] := by
  have small := isSmallOrDigit_of_mem_loweredWords member
  cases word with
  | nil => exact absurd rfl (isWordChar_of_mem_loweredWords member).1
  | cons c tail =>
      have ends : Ends (c :: tail) [] := by
        apply Ends.smalls small
        intro d first
        cases first
      exact ends.wordsOf_alone

/-- The words of a name in `snake_case` are the words of the name in small letters. -/
theorem wordsOf_snakeOf (text : List Char) : wordsOf (snakeOf text) = loweredWords text := by
  have single : (loweredWords text).map wordsOf = (loweredWords text).map fun word => [word] :=
    List.map_congr_left fun _ member => wordsOf_of_mem_loweredWords member
  rw [snakeOf_eq, wordsOf_intercalate, List.flatMap_def, single, ← List.flatMap_def,
    List.flatMap_singleton']

theorem map_toLower_map_toLower {word : List Char} (inside : ∀ c ∈ word, isWordChar c = true) :
    (word.map Char.toLower).map Char.toLower = word.map Char.toLower := by
  rw [List.map_map]
  apply List.map_congr_left
  intro c member
  exact toLower_of_isSmallOrDigit (isSmallOrDigit_toLower (inside c member))

/-- Capitals are lost when a word is capitalized, so they may be lost before. -/
theorem capitalized_map_toLower {word : List Char} (inside : ∀ c ∈ word, isWordChar c = true) :
    capitalized (word.map Char.toLower) = capitalized word := by
  cases word with
  | nil => rfl
  | cons c tail =>
      obtain ⟨first, others⟩ := List.forall_mem_cons.mp inside
      rw [List.map_cons, capitalized, capitalized, toUpper_toLower first,
        map_toLower_map_toLower others]

theorem loweredWords_snakeOf (text : List Char) :
    loweredWords (snakeOf text) = loweredWords text := by
  rw [loweredWords, wordsOf_snakeOf, loweredWords, List.map_map]
  apply List.map_congr_left
  intro word member
  exact map_toLower_map_toLower (isWordChar_of_mem_wordsOf member).2

theorem snakeOf_snakeOf (text : List Char) : snakeOf (snakeOf text) = snakeOf text :=
  snakeOf_inj.mpr (loweredWords_snakeOf text)

theorem flatMap_capitalized_map_toLower {words : List (List Char)}
    (inside : ∀ word ∈ words, ∀ c ∈ word, isWordChar c = true) :
    (words.map (List.map Char.toLower)).flatMap capitalized = words.flatMap capitalized := by
  rw [List.flatMap_map, List.flatMap_def, List.flatMap_def]
  exact congrArg List.flatten
    (List.map_congr_left fun word member => capitalized_map_toLower (inside word member))

theorem pascalOf_snakeOf (text : List Char) : pascalOf (snakeOf text) = pascalOf text := by
  rw [pascalOf, wordsOf_snakeOf, loweredWords,
    flatMap_capitalized_map_toLower fun word member => (isWordChar_of_mem_wordsOf member).2,
    pascalOf]

theorem camelOf_snakeOf (text : List Char) : camelOf (snakeOf text) = camelOf text := by
  have inside : ∀ word ∈ wordsOf text, ∀ c ∈ word, isWordChar c = true :=
    fun word member => (isWordChar_of_mem_wordsOf member).2
  rw [camelOf, wordsOf_snakeOf, loweredWords, camelOf]
  cases split : wordsOf text with
  | nil => rfl
  | cons word others =>
      rw [split] at inside
      obtain ⟨first, later⟩ := List.forall_mem_cons.mp inside
      simp only [List.map_cons, map_toLower_map_toLower first,
        flatMap_capitalized_map_toLower later]

theorem map_toLower_words (name : String) :
    (words name).map String.toLower = (loweredWords name.toList).map String.ofList := by
  rw [words, loweredWords, List.map_map, List.map_map]
  apply List.map_congr_left
  intro word _
  change String.map Char.toLower (String.ofList word) = String.ofList (word.map Char.toLower)
  rw [← String.toList_inj, String.toList_map, String.toList_ofList, String.toList_ofList]

/-- A name in `snake_case` is empty or made of runs of small letters and digits. -/
theorem snake_eq_empty_or_runs (name : String) :
    snake name = "" ∨ ∃ runs : List String, runs ≠ [] ∧
      (∀ run ∈ runs, run ≠ "" ∧ ∀ c ∈ run.toList, isSmallOrDigit c = true) ∧
      snake name = "_".intercalate runs := by
  by_cases none : loweredWords name.toList = []
  · apply Or.inl
    rw [snake, snakeOf_eq, none, List.intercalate_nil, String.ofList_nil]
  · refine .inr ⟨(loweredWords name.toList).map String.ofList, by simpa using none, ?_, ?_⟩
    · intro run member
      obtain ⟨word, found, rfl⟩ := List.mem_map.mp member
      constructor
      · simpa using (isWordChar_of_mem_loweredWords found).1
      · rw [String.toList_ofList]
        exact isSmallOrDigit_of_mem_loweredWords found
    · rw [← String.toList_inj, toList_snake, snakeOf_eq, String.toList_intercalate,
        List.map_map]
      simp [Function.comp_def]

/-- The name in `snake_case` is a normal form of a name: it has the words of the name in
small letters, it is its own name in `snake_case`, and the other casings do not tell it
from the name. It is empty or made of runs of small letters and digits. -/
theorem snake_normalizes (name : String) :
    words (snake name) = (words name).map String.toLower ∧
      snake (snake name) = snake name ∧
      pascal (snake name) = pascal name ∧
      camel (snake name) = camel name ∧
      screamingSnake (snake name) = screamingSnake name ∧
      (snake name = "" ∨ ∃ runs : List String, runs ≠ [] ∧
        (∀ run ∈ runs, run ≠ "" ∧ ∀ c ∈ run.toList, isSmallOrDigit c = true) ∧
        snake name = "_".intercalate runs) := by
  have same : snakeOf (snake name).toList = snakeOf name.toList := by
    rw [toList_snake, snakeOf_snakeOf]
  refine ⟨?_, ?_, ?_, ?_, ?_, snake_eq_empty_or_runs name⟩
  · rw [words, toList_snake, wordsOf_snakeOf, map_toLower_words]
  · rw [snake, same, snake]
  · rw [pascal, toList_snake, pascalOf_snakeOf, pascal]
  · rw [camel, toList_snake, camelOf_snakeOf, camel]
  · rw [screamingSnake, screamingSnakeOf, same, screamingSnake, screamingSnakeOf]

end LexiconCompiler.Name
