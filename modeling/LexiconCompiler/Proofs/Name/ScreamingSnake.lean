import LexiconCompiler.Proofs.Name.Pascal

/-!
# Names in screaming snake case

Raised letters are capitals, and a run of capitals ends before a digit. So a word that mixes
letters and digits may fall apart when the raised name is cut into words anew, and the name
changes. Underscores part the words from each other, so whether one falls apart is a matter
of that word alone.
-/

namespace LexiconCompiler.Name

variable {text word rest : List Char}

/-! ## Words between underscores -/

/-- A character that is dropped ends a word as the end of the text does. -/
theorem ends_cons_iff {c : Char} (dropped : isWordChar c = false) :
    Ends word (c :: rest) ↔ Ends word [] := by
  constructor
  · intro ends
    cases ends with
    | smalls all _ => exact .smalls all nofun
    | raised capital all _ => exact .raised capital all nofun
    | capitals all _ _ => exact .capitals all nofun fun _ => nofun
  · intro ends
    exact ends.append dropped rest

/-- Words that are joined by underscores are found again, up to capitals, exactly if each of
them is a word when it stands alone. -/
theorem loweredWords_intercalate_iff {words : List (List Char)}
    (whole : ∀ word ∈ words, word ≠ [] ∧ ∀ c ∈ word, isWordChar c = true) :
    loweredWords (['_'].intercalate words) = words.map (List.map Char.toLower) ↔
      ∀ word ∈ words, Ends word [] := by
  have dropped : isWordChar '_' = false := by decide
  have skipped : ∀ later : List Char, loweredWords ('_' :: later) = loweredWords later := by
    intro later
    rw [loweredWords, wordsOf_cons_of_not_isWordChar dropped, loweredWords]
  induction words with
  | nil => simp [loweredWords]
  | cons word words ih =>
      obtain ⟨⟨some, here⟩, there⟩ := List.forall_mem_cons.mp whole
      cases words with
      | nil =>
          have alone : loweredWords (word ++ []) = word.map Char.toLower :: [] ↔
              Ends word [] ∧ loweredWords [] = [] := loweredWords_append_iff some here
          rw [List.append_nil] at alone
          rw [List.intercalate_singleton, List.map_singleton, alone, List.forall_mem_singleton]
          exact and_iff_left (by simp [loweredWords])
      | cons next words =>
          rw [List.intercalate_cons_cons, List.append_assoc, List.singleton_append,
            List.map_cons, loweredWords_append_iff some here, ends_cons_iff dropped, skipped,
            List.forall_mem_cons]
          exact and_congr_right' (ih there)

/-! ## Raised words -/

/-- A word stands alone if it has capitals only, or small letters and digits only but for its
first character. -/
theorem ends_nil_iff (nonempty : word ≠ []) (inside : ∀ c ∈ word, isWordChar c = true) :
    Ends word [] ↔
      (∀ c ∈ word, isCapital c = true) ∨ ∀ c ∈ word.tail, isSmallOrDigit c = true := by
  constructor
  · intro ends
    cases ends with
    | smalls all _ => exact .inr fun c member => all c (List.mem_cons_of_mem _ member)
    | raised _ all _ => exact .inr all
    | capitals all _ _ => exact .inl all
  · intro either
    cases word with
    | nil => exact absurd rfl nonempty
    | cons c tail =>
        rcases either with capitals | smalls
        · exact .capitals capitals nofun fun _ => nofun
        · cases small : isSmallOrDigit c with
          | true => exact .smalls (List.forall_mem_cons.mpr ⟨small, smalls⟩) nofun
          | false =>
              have capital := isCapital_of_not_isSmallOrDigit (inside c List.mem_cons_self) small
              cases tail with
              | nil => exact .capitals (List.forall_mem_singleton.mpr capital) nofun fun _ => nofun
              | cons next tail => exact .raised capital smalls nofun

/-- A word of letters only, or of at most one letter followed by digits only. -/
def IsUnmixed (word : String) : Prop :=
  (∀ c ∈ word.toList, c.isAlpha = true) ∨
    ∃ letters digits, word.toList = letters ++ digits ∧ letters.length ≤ 1 ∧
      (∀ c ∈ letters, c.isAlpha = true) ∧ ∀ c ∈ digits, c.isDigit = true

/-- Behind the first character of a word there are digits only exactly if at most one letter
comes before its digits. -/
theorem forall_mem_tail_isDigit_iff (inside : ∀ c ∈ word, isWordChar c = true) :
    (∀ c ∈ word.tail, c.isDigit = true) ↔
      ∃ letters digits, word = letters ++ digits ∧ letters.length ≤ 1 ∧
        (∀ c ∈ letters, c.isAlpha = true) ∧ ∀ c ∈ digits, c.isDigit = true := by
  constructor
  · intro digits
    cases word with
    | nil => exact ⟨[], [], rfl, Nat.zero_le 1, nofun, nofun⟩
    | cons c tail =>
        cases letter : c.isAlpha with
        | true =>
            exact ⟨[c], tail, rfl, Nat.le_refl 1, List.forall_mem_singleton.mpr letter, digits⟩
        | false =>
            have digit := isDigit_of_not_isAlpha (inside c List.mem_cons_self) letter
            exact ⟨[], c :: tail, rfl, Nat.zero_le 1, nofun,
              List.forall_mem_cons.mpr ⟨digit, digits⟩⟩
  · rintro ⟨letters, digits, rfl, few, _, all⟩
    rcases letters with _ | ⟨c, _ | ⟨next, letters⟩⟩
    · exact fun c member => all c (List.mem_of_mem_tail member)
    · exact all
    · exact absurd few (by simp)

theorem forall_mem_map_toUpper_iff {test image : Char → Bool}
    (inside : ∀ c ∈ word, isWordChar c = true)
    (tests : ∀ {c}, isWordChar c = true → test c.toUpper = image c) :
    (∀ c ∈ word.map Char.toUpper, test c = true) ↔ ∀ c ∈ word, image c = true := by
  rw [List.forall_mem_map]
  apply forall₂_congr
  intro c member
  rw [tests (inside c member)]

/-- A raised word stands alone exactly if its letters and digits are not mixed. -/
theorem ends_map_toUpper_iff (nonempty : word ≠ []) (inside : ∀ c ∈ word, isWordChar c = true) :
    Ends (word.map Char.toUpper) [] ↔ IsUnmixed (String.ofList word) := by
  have raised : ∀ c ∈ word.map Char.toUpper, isWordChar c = true :=
    List.forall_mem_map.mpr fun c member => isWordChar_toUpper (inside c member)
  have tail : ∀ c ∈ word.tail, isWordChar c = true :=
    fun c member => inside c (List.mem_of_mem_tail member)
  rw [ends_nil_iff (by simpa using nonempty) raised, ← List.map_tail,
    forall_mem_map_toUpper_iff inside isCapital_toUpper,
    forall_mem_map_toUpper_iff tail isSmallOrDigit_toUpper,
    forall_mem_tail_isDigit_iff inside, IsUnmixed, String.toList_ofList]

/-! ## The whole name -/

/-- The words of a text in capitals. -/
def raisedWords (text : List Char) : List (List Char) :=
  (wordsOf text).map (List.map Char.toUpper)

theorem isWordChar_of_mem_raisedWords (member : word ∈ raisedWords text) :
    word ≠ [] ∧ ∀ c ∈ word, isWordChar c = true := by
  obtain ⟨original, found, rfl⟩ := List.mem_map.mp member
  obtain ⟨nonempty, inside⟩ := isWordChar_of_mem_wordsOf found
  exact ⟨by simpa using nonempty,
    List.forall_mem_map.mpr fun c among => isWordChar_toUpper (inside c among)⟩

theorem map_toLower_raisedWords (text : List Char) :
    (raisedWords text).map (List.map Char.toLower) = loweredWords text := by
  rw [raisedWords, List.map_map, loweredWords]
  apply List.map_congr_left
  intro word member
  rw [Function.comp_apply, List.map_map]
  exact List.map_congr_left fun c among =>
    toLower_toUpper ((isWordChar_of_mem_wordsOf member).2 c among)

/-- A name in `SCREAMING_SNAKE_CASE` is made of the raised words of the name. -/
theorem screamingSnakeOf_eq (text : List Char) :
    screamingSnakeOf text = ['_'].intercalate (raisedWords text) := by
  rw [screamingSnakeOf, snakeOf_eq, map_intercalate, loweredWords, List.map_map, raisedWords]
  apply congrArg (List.intercalate ['_'])
  apply List.map_congr_left
  intro word member
  rw [Function.comp_apply, List.map_map]
  exact List.map_congr_left fun c among =>
    toUpper_toLower ((isWordChar_of_mem_wordsOf member).2 c among)

/-- A name in `SCREAMING_SNAKE_CASE` is kept by converting it again exactly if every word of
the name has letters only, or at most one letter and then digits only. -/
theorem screamingSnake_screamingSnake_iff (name : String) :
    screamingSnake (screamingSnake name) = screamingSnake name ↔
      ∀ word ∈ words name, (∀ c ∈ word.toList, c.isAlpha = true) ∨
        ∃ letters digits, word.toList = letters ++ digits ∧ letters.length ≤ 1 ∧
          (∀ c ∈ letters, c.isAlpha = true) ∧ ∀ c ∈ digits, c.isDigit = true := by
  calc screamingSnake (screamingSnake name) = screamingSnake name
      ↔ loweredWords (screamingSnakeOf name.toList) = loweredWords name.toList := by
        rw [← String.toList_inj, toList_screamingSnake, toList_screamingSnake,
          screamingSnakeOf_inj]
    _ ↔ ∀ word ∈ raisedWords name.toList, Ends word [] := by
        rw [screamingSnakeOf_eq, ← map_toLower_raisedWords name.toList]
        exact loweredWords_intercalate_iff fun _ => isWordChar_of_mem_raisedWords
    _ ↔ ∀ word ∈ words name, IsUnmixed word := by
        rw [words, raisedWords, List.forall_mem_map, List.forall_mem_map]
        apply forall₂_congr
        intro word member
        obtain ⟨some, inside⟩ := isWordChar_of_mem_wordsOf member
        exact ends_map_toUpper_iff some inside

example : screamingSnake (screamingSnake "getV2Blob") = "GET_V2_BLOB" := by decide +kernel

example : screamingSnake (screamingSnake "sha256Sum") = "SHA_256_SUM" := by decide +kernel

end LexiconCompiler.Name
