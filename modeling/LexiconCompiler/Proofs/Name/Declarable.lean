import LexiconCompiler.Proofs.Name.Snake

/-!
# Generated names that can be declared

Class names and stems are made of ASCII letters, digits and underscores, so whether they can
be declared is decided by their first character and by the reserved words. The first
character is the first letter or digit of the name that they are made from, and reserved
words are met by three class names only.
-/

namespace LexiconCompiler.Name

variable {text : List Char} {name part : String} {c : Char}

/-- A name has a letter or digit, and the first one is a letter. -/
def StartsWithLetter (name : String) : Prop :=
  ∃ c, name.toList.find? isWordChar = some c ∧ c.isAlpha = true

/-- Whether a character is a capital letter or a digit of ASCII. -/
def isCapitalOrDigit (c : Char) : Bool :=
  isCapital c || c.isDigit

/-- The form of a class name: a capital, then letters and digits. -/
def IsClassName (name : String) : Prop :=
  ∃ c rest, name.toList = c :: rest ∧ isCapital c = true ∧ ∀ d ∈ rest, isWordChar d = true

/-- The form of a stem: runs of capitals and digits with an underscore between them, the
first of which begins with a capital. -/
def IsStem (name : String) : Prop :=
  ∃ c first runs, name.toList = ['_'].intercalate ((c :: first) :: runs) ∧
    isCapital c = true ∧ (∀ d ∈ first, isCapitalOrDigit d = true) ∧
    ∀ run ∈ runs, run ≠ [] ∧ ∀ d ∈ run, isCapitalOrDigit d = true

/-! ## Identifiers -/

theorem continuesIdentifier_of_isWordChar (inside : isWordChar c = true) :
    continuesIdentifier c = true :=
  forall_isWordChar (fun c => continuesIdentifier c = true) (by decide) inside

theorem startsIdentifier_of_isWordChar (inside : isWordChar c = true) :
    startsIdentifier c = c.isAlpha :=
  forall_isWordChar (fun c => startsIdentifier c = c.isAlpha) (by decide) inside

theorem isCapitalOrDigit_toUpper (inside : isWordChar c = true) :
    isCapitalOrDigit c.toUpper = true :=
  forall_isWordChar (fun c => isCapitalOrDigit c.toUpper = true) (by decide) inside

/-- A name of letters, digits and underscores is an identifier exactly if it starts as one. -/
theorem isIdentifier_iff (plain : ∀ c ∈ name.toList, isWordChar c = true ∨ c = '_') :
    isIdentifier name = true ↔ ∃ c, name.toList.head? = some c ∧ startsIdentifier c = true := by
  have continues : ∀ c ∈ name.toList, continuesIdentifier c = true := by
    intro c member
    cases plain c member with
    | inl inside => exact continuesIdentifier_of_isWordChar inside
    | inr underscore => rw [underscore]; decide
  rw [isIdentifier]
  cases spelled : name.toList with
  | nil => simp
  | cons c rest =>
      rw [spelled] at continues
      have others : rest.all continuesIdentifier = true :=
        List.all_eq_true.mpr fun d member => continues d (List.mem_cons_of_mem c member)
      simp [others]

/-! ## The first character -/

theorem head?_pascalOf (text : List Char) :
    (pascalOf text).head? = (text.find? isWordChar).map Char.toUpper := by
  rw [← List.head?_filter, ← flatten_wordsOf, pascalOf]
  cases split : wordsOf text with
  | nil => rfl
  | cons word words =>
      have nonempty := (isWordChar_of_mem_wordsOf (split ▸ List.mem_cons_self)).1
      cases word with
      | nil => exact absurd rfl nonempty
      | cons c tail => rfl

theorem head?_snakeOf (text : List Char) :
    (snakeOf text).head? = (text.find? isWordChar).map Char.toLower := by
  rw [← List.head?_filter, ← flatten_wordsOf, snakeOf_eq, loweredWords]
  cases split : wordsOf text with
  | nil => rfl
  | cons word words =>
      have nonempty := (isWordChar_of_mem_wordsOf (split ▸ List.mem_cons_self)).1
      cases word with
      | nil => exact absurd rfl nonempty
      | cons c tail => cases words <;> simp

theorem head?_screamingSnakeOf (text : List Char) :
    (screamingSnakeOf text).head? = (text.find? isWordChar).map Char.toUpper := by
  rw [screamingSnakeOf, List.head?_map, head?_snakeOf]
  cases found : text.find? isWordChar with
  | none => rfl
  | some c => exact congrArg some (toUpper_toLower (List.find?_some found))

theorem find?_pascalOf (text : List Char) :
    (pascalOf text).find? isWordChar = (text.find? isWordChar).map Char.toUpper := by
  have whole : (pascalOf text).filter isWordChar = pascalOf text :=
    List.filter_eq_self.mpr fun _ member => isWordChar_of_mem_pascalOf member
  rw [← List.head?_filter, whole, head?_pascalOf]

/-- A test for letters that sees no case may be made on the raised character. -/
theorem exists_toUpper_iff {test : Char → Bool}
    (agrees : ∀ {c}, isWordChar c = true → test c.toUpper = c.isAlpha) :
    (∃ c, (name.toList.find? isWordChar).map Char.toUpper = some c ∧ test c = true) ↔
      StartsWithLetter name := by
  rw [StartsWithLetter]
  cases found : name.toList.find? isWordChar with
  | none => simp
  | some c => simp [agrees (List.find?_some found)]

theorem startsWithLetter_pascal_iff : StartsWithLetter (pascal name) ↔ StartsWithLetter name := by
  rw [StartsWithLetter, toList_pascal, find?_pascalOf]
  exact exists_toUpper_iff isAlpha_toUpper

theorem startsIdentifier_toUpper (inside : isWordChar c = true) :
    startsIdentifier c.toUpper = c.isAlpha := by
  rw [startsIdentifier_of_isWordChar (isWordChar_toUpper inside), isAlpha_toUpper inside]

theorem isCapital_head?_pascal (starts : StartsWithLetter name) :
    ∃ c, (pascal name).toList.head? = some c ∧ isCapital c = true := by
  rw [toList_pascal, head?_pascalOf]
  exact (exists_toUpper_iff isCapital_toUpper).mpr starts

/-! ## Reserved words -/

/-- The reserved words that begin with a capital. -/
def reservedClassNames : List String :=
  ["None", "True", "False"]

theorem exists_isLower_of_mem_reservedWords {word : String} (reserved : word ∈ reservedWords) :
    ∃ c ∈ word.toList, c.isLower = true := by
  have table : ∀ word ∈ reservedWords, word.toList.any Char.isLower = true := by decide
  exact List.any_eq_true.mp (table word reserved)

theorem mem_reservedWords_iff_of_capital (first : name.toList.head? = some c)
    (capital : isCapital c = true) : name ∈ reservedWords ↔ name ∈ reservedClassNames := by
  have table : ∀ word ∈ reservedWords, word.toList.head?.any isCapital = true →
      word ∈ reservedClassNames := by decide
  have reserved : ∀ word ∈ reservedClassNames, word ∈ reservedWords := by decide
  constructor
  · intro member
    exact table name member (by rw [first, Option.any_some, capital])
  · exact reserved name

theorem isDeclarable_iff :
    isDeclarable name = true ↔ isIdentifier name = true ∧ name ∉ reservedWords := by
  simp [isDeclarable]

/-! ## Stems -/

theorem cases_of_mem_screamingSnakeOf (member : c ∈ screamingSnakeOf text) :
    (isWordChar c = true ∨ c = '_') ∧ c.isLower = false := by
  obtain ⟨d, inside, rfl⟩ := List.mem_map.mp member
  cases isWordChar_of_mem_snakeOf inside with
  | inl kept => exact ⟨.inl (isWordChar_toUpper kept), isLower_toUpper kept⟩
  | inr underscore =>
      rw [underscore]
      exact ⟨.inr rfl, rfl⟩

/-- A stem can be declared exactly if it is made from a name that starts with a letter. -/
theorem isDeclarable_screamingSnake_iff :
    isDeclarable (screamingSnake name) = true ↔ StartsWithLetter name := by
  have plain : ∀ c ∈ (screamingSnake name).toList, isWordChar c = true ∨ c = '_' := by
    intro c member
    rw [toList_screamingSnake] at member
    exact (cases_of_mem_screamingSnakeOf member).1
  have free : screamingSnake name ∉ reservedWords := by
    intro reserved
    obtain ⟨c, member, lower⟩ := exists_isLower_of_mem_reservedWords reserved
    rw [toList_screamingSnake] at member
    rw [(cases_of_mem_screamingSnakeOf member).2] at lower
    cases lower
  rw [isDeclarable_iff, and_iff_left free, isIdentifier_iff plain, toList_screamingSnake,
    head?_screamingSnakeOf]
  exact exists_toUpper_iff startsIdentifier_toUpper

/-- A stem that can be declared has the form of one. -/
theorem isStem_screamingSnake (starts : StartsWithLetter name) :
    IsStem (screamingSnake name) := by
  have spelled : (screamingSnake name).toList =
      ['_'].intercalate ((loweredWords name.toList).map (List.map Char.toUpper)) := by
    rw [toList_screamingSnake, screamingSnakeOf, snakeOf_eq, map_intercalate]
    rfl
  have runs : ∀ word ∈ loweredWords name.toList,
      word.map Char.toUpper ≠ [] ∧
        ∀ d ∈ word.map Char.toUpper, isCapitalOrDigit d = true := by
    intro word member
    obtain ⟨nonempty, inside⟩ := isWordChar_of_mem_loweredWords member
    refine ⟨by simpa using nonempty, ?_⟩
    intro d among
    obtain ⟨e, here, rfl⟩ := List.mem_map.mp among
    exact isCapitalOrDigit_toUpper (inside e here)
  obtain ⟨c, first, capital⟩ := (exists_toUpper_iff isCapital_toUpper).mpr starts
  rw [← head?_screamingSnakeOf, ← toList_screamingSnake, spelled] at first
  cases split : loweredWords name.toList with
  | nil => simp [split] at first
  | cons word words =>
      rw [split] at spelled first runs
      obtain ⟨⟨nonempty, inside⟩, later⟩ := List.forall_mem_cons.mp runs
      cases word with
      | nil => exact absurd rfl nonempty
      | cons d tail =>
          have same : d.toUpper = c := by cases words <;> simpa using first
          refine ⟨d.toUpper, tail.map Char.toUpper, words.map (List.map Char.toUpper), spelled,
            same ▸ capital, fun e member => inside e (List.mem_cons_of_mem _ member), ?_⟩
          intro run member
          obtain ⟨word, among, rfl⟩ := List.mem_map.mp member
          exact later word among

/-! ## Class names -/

theorem isIdentifier_iff_of_isWordChar (plain : ∀ c ∈ name.toList, isWordChar c = true) :
    isIdentifier name = true ↔ ∃ c, name.toList.head? = some c ∧ c.isAlpha = true := by
  rw [isIdentifier_iff fun c member => .inl (plain c member)]
  cases spelled : name.toList with
  | nil => simp
  | cons c rest =>
      have inside := plain c (spelled ▸ List.mem_cons_self)
      simp [startsIdentifier_of_isWordChar inside]

theorem isWordChar_of_mem_pascal (member : c ∈ (pascal name).toList) : isWordChar c = true := by
  rw [toList_pascal] at member
  exact isWordChar_of_mem_pascalOf member

/-- A class name can be declared exactly if it is made from a name that starts with a letter
and is no reserved word. -/
theorem isDeclarable_pascal_iff : isDeclarable (pascal name) = true ↔
    StartsWithLetter name ∧ pascal name ∉ reservedClassNames := by
  have starts : isIdentifier (pascal name) = true ↔ StartsWithLetter name := by
    rw [isIdentifier_iff_of_isWordChar fun _ => isWordChar_of_mem_pascal, toList_pascal,
      head?_pascalOf]
    exact exists_toUpper_iff isAlpha_toUpper
  rw [isDeclarable_iff, starts]
  apply and_congr_right
  intro letter
  obtain ⟨c, first, capital⟩ := isCapital_head?_pascal letter
  rw [mem_reservedWords_iff_of_capital first capital]

/-- A class name with a part behind it can be declared, unless reserved words end in it. -/
theorem isDeclarable_pascal_append (starts : StartsWithLetter name)
    (plain : ∀ c ∈ part.toList, isWordChar c = true)
    (free : ∀ word ∈ reservedWords, ¬ part.toList <:+ word.toList) :
    isDeclarable (pascal name ++ part) = true := by
  obtain ⟨c, first, capital⟩ := isCapital_head?_pascal starts
  have whole : ∀ c ∈ (pascal name ++ part).toList, isWordChar c = true := by
    intro c member
    rw [String.toList_append, List.mem_append] at member
    exact member.elim isWordChar_of_mem_pascal (plain c)
  rw [isDeclarable_iff, isIdentifier_iff_of_isWordChar whole]
  constructor
  · refine ⟨c, ?_, ?_⟩
    · rw [String.toList_append, List.head?_append, first, Option.some_or]
    · have kept := isWordChar_of_mem_pascal (List.mem_of_mem_head? first)
      rw [isCapital_eq kept, Bool.and_eq_true] at capital
      exact capital.1
  · intro reserved
    apply free _ reserved
    rw [String.toList_append]
    exact List.suffix_append _ _

/-- A name of letters and digits that can be declared and does not start with a small letter
has the form of a class name. -/
theorem isClassName_of_isDeclarable (valid : isDeclarable name = true)
    (plain : ∀ c ∈ name.toList, isWordChar c = true)
    (raised : ∀ c ∈ name.toList.head?, c.isLower = false) : IsClassName name := by
  obtain ⟨c, first, letter⟩ :=
    (isIdentifier_iff_of_isWordChar plain).mp (isDeclarable_iff.mp valid).1
  obtain ⟨rest, spelled⟩ := List.head?_eq_some_iff.mp first
  refine ⟨c, rest, spelled, ?_, ?_⟩
  · rw [isCapital_eq (plain c (List.mem_of_mem_head? first)), letter, raised c first]
    rfl
  · intro d member
    exact plain d (spelled ▸ List.mem_cons_of_mem c member)

end LexiconCompiler.Name
