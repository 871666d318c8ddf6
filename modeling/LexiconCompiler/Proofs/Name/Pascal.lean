import LexiconCompiler.Proofs.Name.Snake
import Mathlib.Data.List.Chain

/-!
# Names in Pascal case

Converting a name to `PascalCase` once more may cut it into other words: capitals that stand
side by side are taken for one word. They do so exactly where a word of one letter comes
right before a word that begins with a letter, so the first conversion tells whether a
second one changes anything.
-/

namespace LexiconCompiler.Name

variable {text word rest : List Char} {c : Char}

/-! ## Names that are kept -/

/-- Not both of two characters are capitals. -/
def NotBothCapital (first second : Char) : Prop :=
  isCapital first = true → isCapital second = false

theorem length_capitalized (word : List Char) : (capitalized word).length = word.length := by
  cases word <;> simp [capitalized]

/-- A text in which only the first character may be a capital. -/
theorem isChain_of_tail (plain : ∀ d ∈ word.tail, isCapital d = false) :
    word.IsChain NotBothCapital := by
  induction word with
  | nil => exact .nil
  | cons c tail ih =>
      rw [List.isChain_cons]
      constructor
      · intro d first _
        exact plain d (List.mem_of_head? first)
      · exact ih fun d member => plain d (List.mem_of_mem_tail member)

/-- A word that ends in no capital makes no pair of capitals with what follows it. -/
theorem isChain_append_iff (word : List Char) (plain : ∀ d ∈ word.tail, isCapital d = false)
    (ends : ∀ d ∈ word.getLast?, isCapital d = false) :
    (word ++ rest).IsChain NotBothCapital ↔ rest.IsChain NotBothCapital := by
  rw [List.isChain_append]
  constructor
  · exact fun chained => chained.2.1
  · intro chained
    refine ⟨isChain_of_tail plain, chained, ?_⟩
    intro d last _ _ capital
    rw [ends d last] at capital
    cases capital

theorem map_toLower_of_smalls (all : ∀ d ∈ word, isSmallOrDigit d = true) :
    word.map Char.toLower = word :=
  (List.map_congr_left fun d member => toLower_of_isSmallOrDigit (all d member)).trans
    (List.map_id word)

theorem eq_nil_of_stops (whole : ∀ d ∈ rest, isWordChar d = true)
    (noSmall : ∀ d ∈ rest.head?, isSmallOrDigit d = false)
    (noCapital : ∀ d ∈ rest.head?, isCapital d = false) : rest = [] := by
  cases rest with
  | nil => rfl
  | cons d rest =>
      have inside := whole d List.mem_cons_self
      rw [isWordChar, noSmall d rfl, noCapital d rfl] at inside
      cases inside

/-- What is left of a text is kept, and so is its first word, exactly if the text does not
begin with a small letter and has no two capitals side by side. -/
theorem Ends.kept_iff (ends : Ends word rest) (whole : ∀ d ∈ rest, isWordChar d = true) :
    capitalized word = word ∧ (∀ d ∈ rest.head?, d.isLower = false) ∧
        rest.IsChain NotBothCapital ↔
      (∀ d ∈ (word ++ rest).head?, d.isLower = false) ∧
        (word ++ rest).IsChain NotBothCapital := by
  cases ends with
  | @smalls c tail rest all stops =>
      obtain ⟨first, others⟩ := List.forall_mem_cons.mp all
      have plain : ∀ d ∈ c :: tail, isCapital d = false :=
        fun d member => isCapital_of_isSmallOrDigit (all d member)
      have later : ∀ d ∈ rest.head?, d.isLower = false :=
        fun d member => isLower_of_not_isSmallOrDigit (stops d member)
      have kept : capitalized (c :: tail) = c :: tail ↔ c.isLower = false := by
        rw [capitalized, map_toLower_of_smalls others, List.cons.injEq, and_iff_left rfl]
        exact toUpper_eq_iff_of_isSmallOrDigit first
      rw [kept, isChain_append_iff _ (fun d member => plain d (List.mem_of_mem_tail member))
        fun d member => plain d (List.mem_of_getLast? member)]
      simp only [and_iff_right later, List.cons_append, List.head?_cons, Option.mem_some_iff,
        forall_eq']
  | @raised c next tail rest capital all stops =>
      have plain : ∀ d ∈ next :: tail, isCapital d = false :=
        fun d member => isCapital_of_isSmallOrDigit (all d member)
      have later : ∀ d ∈ rest.head?, d.isLower = false :=
        fun d member => isLower_of_not_isSmallOrDigit (stops d member)
      have kept : capitalized (c :: next :: tail) = c :: next :: tail := by
        rw [capitalized, map_toLower_of_smalls all, toUpper_of_isCapital capital]
      have joins : (c :: next :: tail ++ rest).IsChain NotBothCapital ↔
          rest.IsChain NotBothCapital := by
        apply isChain_append_iff (c :: next :: tail) plain
        intro d last
        rw [List.getLast?_cons_cons] at last
        exact plain d (List.mem_of_getLast? last)
      rw [joins]
      simp only [kept, and_iff_right later, List.cons_append, List.head?_cons,
        Option.mem_some_iff, forall_eq', isLower_of_isCapital capital, true_and]
  | @capitals c tail rest all stops alone =>
      obtain ⟨first, others⟩ := List.forall_mem_cons.mp all
      cases tail with
      | nil =>
          -- a capital that is a word by itself is followed by nothing
          rw [eq_nil_of_stops whole (alone rfl) stops]
          simp [capitalized, toUpper_of_isCapital first, isLower_of_isCapital first]
      | cons d tail =>
          have second := others d List.mem_cons_self
          apply iff_of_false
          · rintro ⟨kept, _⟩
            simp only [capitalized, List.map_cons, List.cons.injEq] at kept
            exact toLower_ne_of_isCapital second kept.2.1
          · rintro ⟨_, chained⟩
            have apart := chained.rel first
            rw [second] at apart
            cases apart

/-- A text of letters and digits is kept exactly if it does not begin with a small letter
and has no two capitals side by side. -/
theorem pascalOf_eq_self_iff (whole : ∀ d ∈ text, isWordChar d = true) :
    pascalOf text = text ↔
      (∀ d ∈ text.head?, d.isLower = false) ∧ text.IsChain NotBothCapital := by
  induction text using wordsOf.induct with
  | case1 text word rest found ih =>
      have split := append_eq_of_firstWord found
      have later : ∀ d ∈ rest, isWordChar d = true := by
        intro d member
        exact whole d (split ▸ List.mem_append_right word member)
      have cut : pascalOf text = capitalized word ++ pascalOf rest := by
        rw [pascalOf, wordsOf_of_firstWord found]
        rfl
      rw [← split, ← (ends_of_firstWord found).kept_iff later, ← ih later, split, cut, ← split]
      constructor
      · intro kept
        exact List.append_inj kept (length_capitalized word)
      · rintro ⟨here, there⟩
        rw [here, there]
  | case2 => simp [pascalOf]
  | case3 c rest absent =>
      have inside := whole c List.mem_cons_self
      rw [isWordChar_of_firstWord_eq_none absent] at inside
      cases inside

/-! ## Words of one letter -/

/-- Whether a word begins with a letter. -/
def beginsWithLetter (word : String) : Bool :=
  word.toList.head?.any Char.isAlpha

/-- Whether a word is a single letter. -/
def isLoneLetter (word : String) : Bool :=
  word.length = 1 && beginsWithLetter word

/-- A single letter does not come right before a letter: capitalized, the two would be
capitals side by side. -/
def StandsApart (word next : String) : Prop :=
  isLoneLetter word = true → beginsWithLetter next = false

theorem isCapital_of_mem_tail_capitalized (whole : ∀ d ∈ word, isWordChar d = true) :
    ∀ d ∈ (capitalized word).tail, isCapital d = false := by
  intro d member
  cases word with
  | nil => cases member
  | cons c word =>
      obtain ⟨other, inside, rfl⟩ := List.mem_map.mp member
      exact isCapital_toLower (whole other (List.mem_cons_of_mem _ inside))

theorem any_isCapital_head?_capitalized (whole : ∀ d ∈ word, isWordChar d = true) :
    (capitalized word).head?.any isCapital = beginsWithLetter (String.ofList word) := by
  cases word with
  | nil => rfl
  | cons c word =>
      have raised := isCapital_toUpper (whole c List.mem_cons_self)
      simp [capitalized, beginsWithLetter, raised]

theorem any_isCapital_getLast?_capitalized (whole : ∀ d ∈ word, isWordChar d = true) :
    (capitalized word).getLast?.any isCapital = isLoneLetter (String.ofList word) := by
  rcases word with _ | ⟨c, _ | ⟨d, word⟩⟩
  · rfl
  · have raised := isCapital_toUpper (whole c List.mem_cons_self)
    simp [capitalized, isLoneLetter, beginsWithLetter, raised]
  · have lowered := isCapital_of_mem_tail_capitalized whole
    have long : isLoneLetter (String.ofList (c :: d :: word)) = false := by
      simp [isLoneLetter]
    rw [long, Option.any_eq_false]
    intro last ends
    rw [capitalized, List.map_cons, List.getLast?_cons_cons] at ends
    simp [lowered last (List.mem_of_getLast? ends)]

theorem forall_notBothCapital_iff {last first : Option Char} :
    (∀ c ∈ last, ∀ d ∈ first, NotBothCapital c d) ↔
      (last.any isCapital = true → first.any isCapital = false) := by
  cases last <;> cases first <;> simp [NotBothCapital]

theorem head?_flatMap_capitalized (nonempty : word ≠ []) (words : List (List Char)) :
    ((word :: words).flatMap capitalized).head? = (capitalized word).head? := by
  cases word with
  | nil => exact absurd rfl nonempty
  | cons c word => rfl

/-- Capitals stand side by side in capitalized words unless every two of the words
stand apart. -/
theorem isChain_flatMap_capitalized_iff {words : List (List Char)}
    (whole : ∀ word ∈ words, word ≠ [] ∧ ∀ d ∈ word, isWordChar d = true) :
    (words.flatMap capitalized).IsChain NotBothCapital ↔
      (words.map String.ofList).IsChain StandsApart := by
  induction words with
  | nil => simp
  | cons word words ih =>
      obtain ⟨⟨_, here⟩, there⟩ := List.forall_mem_cons.mp whole
      have within := isChain_of_tail (isCapital_of_mem_tail_capitalized here)
      have between : (∀ c ∈ (capitalized word).getLast?, ∀ d ∈ (words.flatMap capitalized).head?,
          NotBothCapital c d) ↔
          ∀ next ∈ (words.map String.ofList).head?, StandsApart (String.ofList word) next := by
        rw [forall_notBothCapital_iff, any_isCapital_getLast?_capitalized here]
        cases words with
        | nil => simp
        | cons next words =>
            obtain ⟨some, inside⟩ := there next List.mem_cons_self
            rw [head?_flatMap_capitalized some, any_isCapital_head?_capitalized inside]
            simp [StandsApart]
      rw [List.flatMap_cons, List.isChain_append, List.map_cons, List.isChain_cons, ← ih there,
        between]
      exact ⟨fun ⟨_, rest, apart⟩ => ⟨apart, rest⟩, fun ⟨apart, rest⟩ => ⟨within, rest, apart⟩⟩

/-- A name in `PascalCase` is kept by converting it again exactly if no word of the name
that is a single letter comes right before a word that begins with a letter. -/
theorem pascal_pascal_iff (name : String) :
    pascal (pascal name) = pascal name ↔
      (words name).IsChain fun word next =>
        isLoneLetter word = true → beginsWithLetter next = false := by
  have whole : ∀ d ∈ pascalOf name.toList, isWordChar d = true :=
    fun d member => isWordChar_of_mem_pascalOf member
  have begins : ∀ d ∈ (pascalOf name.toList).head?, d.isLower = false := by
    intro d first
    obtain ⟨rest, shown⟩ := List.head?_eq_some_iff.mp first
    exact isLower_head_pascalOf shown
  calc pascal (pascal name) = pascal name
      ↔ pascalOf (pascalOf name.toList) = pascalOf name.toList := by
        rw [← String.toList_inj, toList_pascal, toList_pascal]
    _ ↔ (pascalOf name.toList).IsChain NotBothCapital := by
        rw [pascalOf_eq_self_iff whole, and_iff_right begins]
    _ ↔ (words name).IsChain StandsApart :=
        isChain_flatMap_capitalized_iff fun word member => isWordChar_of_mem_wordsOf member

/-! ## The words of the name -/

/-- Two words that follow each other are told apart when they are capitalized: the second
begins with a letter, which becomes a capital, and the first does not end in one. -/
def KeepsApart (word next : String) : Prop :=
  beginsWithLetter next = true ∧ isLoneLetter word = false

theorem map_toLower_capitalized (inside : ∀ d ∈ word, isWordChar d = true) :
    (capitalized word).map Char.toLower = word.map Char.toLower := by
  cases word with
  | nil => rfl
  | cons c tail =>
      obtain ⟨first, others⟩ := List.forall_mem_cons.mp inside
      rw [capitalized, List.map_cons, toLower_toUpper first, map_toLower_map_toLower others,
        List.map_cons]

/-- A capitalized word ends before a capital, unless it is a capital itself. -/
theorem ends_capitalized (nonempty : word ≠ []) (inside : ∀ d ∈ word, isWordChar d = true)
    (apart : ∀ d ∈ rest.head?, isCapital d = true ∧ isLoneLetter (String.ofList word) = false) :
    Ends (capitalized word) rest := by
  cases word with
  | nil => exact absurd rfl nonempty
  | cons c tail =>
      obtain ⟨first, others⟩ := List.forall_mem_cons.mp inside
      have lowered := isSmallOrDigit_of_mem_map_toLower others
      have stops : ∀ d ∈ rest.head?, isSmallOrDigit d = false :=
        fun d next => isSmallOrDigit_of_isCapital (apart d next).1
      cases letter : c.isAlpha with
      | false =>
          have small : isSmallOrDigit c.toUpper = true := by
            apply isSmallOrDigit_of_not_isCapital (isWordChar_toUpper first)
            rw [isCapital_toUpper first, letter]
          exact .smalls (List.forall_mem_cons.mpr ⟨small, lowered⟩) stops
      | true =>
          have capital : isCapital c.toUpper = true := by rw [isCapital_toUpper first, letter]
          cases tail with
          | nil =>
              -- a single letter ends only at the end of the text
              have lone : isLoneLetter (String.ofList [c]) = true := by
                simp [isLoneLetter, beginsWithLetter, letter]
              refine .capitals (List.forall_mem_singleton.mpr capital) ?_ fun _ => stops
              intro d next
              rw [(apart d next).2] at lone
              cases lone
          | cons next tail => exact .raised capital lowered stops

/-- What follows a capitalized word that ends there is a capital, and the word is none. -/
theorem apart_of_ends_capitalized (inside : ∀ d ∈ word, isWordChar d = true)
    (ends : Ends (capitalized word) rest) {d : Char} (next : d ∈ rest.head?)
    (kept : isWordChar d = true) :
    isCapital d = true ∧ isLoneLetter (String.ofList word) = false := by
  have lowered := isCapital_of_mem_tail_capitalized inside
  rw [← any_isCapital_getLast?_capitalized inside, Option.any_eq_false]
  generalize capitalized word = shown at ends lowered
  cases ends with
  | smalls all stops =>
      refine ⟨isCapital_of_not_isSmallOrDigit kept (stops d next), ?_⟩
      intro last ending
      rw [isCapital_of_isSmallOrDigit (all last (List.mem_of_getLast? ending))]
  | raised capital all stops =>
      refine ⟨isCapital_of_not_isSmallOrDigit kept (stops d next), ?_⟩
      intro last ending
      rw [List.getLast?_cons_cons] at ending
      rw [isCapital_of_isSmallOrDigit (all last (List.mem_of_getLast? ending))]
  | @capitals c tail _ all stops alone =>
      cases tail with
      | nil =>
          rw [isWordChar, alone rfl d next, stops d next] at kept
          cases kept
      | cons e tail =>
          have capital := all e (by simp)
          rw [lowered e List.mem_cons_self] at capital
          cases capital

theorem ends_capitalized_iff (nonempty : word ≠ []) (inside : ∀ d ∈ word, isWordChar d = true)
    (whole : ∀ d ∈ rest, isWordChar d = true) :
    Ends (capitalized word) rest ↔
      ∀ d ∈ rest.head?, isCapital d = true ∧ isLoneLetter (String.ofList word) = false :=
  ⟨fun ends _ next => apart_of_ends_capitalized inside ends next
      (whole _ (List.mem_of_mem_head? next)),
    ends_capitalized nonempty inside⟩

/-- A text that starts with some word has as its first word, up to capitals, that word only
if the word ends there. -/
theorem loweredWords_append_iff {others : List (List Char)} (nonempty : word ≠ [])
    (inside : ∀ d ∈ word, isWordChar d = true) :
    loweredWords (word ++ rest) = word.map Char.toLower :: others ↔
      Ends word rest ∧ loweredWords rest = others := by
  constructor
  · intro same
    cases found : firstWord (word ++ rest) with
    | none =>
        cases word with
        | nil => exact absurd rfl nonempty
        | cons c tail =>
            have kept := inside c List.mem_cons_self
            rw [isWordChar_of_firstWord_eq_none found] at kept
            cases kept
    | some cut =>
        obtain ⟨first, later⟩ := cut
        rw [loweredWords, wordsOf_of_firstWord found, List.map_cons, List.cons.injEq] at same
        have long : first.length = word.length := by
          simpa using congrArg List.length same.1
        obtain ⟨whole, ends⟩ := firstWord_eq_some_iff.mp found
        obtain ⟨rfl, rfl⟩ := List.append_inj whole long
        exact ⟨ends, same.2⟩
  · rintro ⟨ends, rfl⟩
    rw [loweredWords, ends.wordsOf, List.map_cons, loweredWords]

/-- Capitalized words are found again, up to capitals, exactly if every two of them that
follow each other are told apart. -/
theorem loweredWords_flatMap_capitalized_iff {words : List (List Char)}
    (whole : ∀ word ∈ words, word ≠ [] ∧ ∀ d ∈ word, isWordChar d = true) :
    loweredWords (words.flatMap capitalized) = words.map (List.map Char.toLower) ↔
      (words.map String.ofList).IsChain KeepsApart := by
  induction words with
  | nil => simp [loweredWords]
  | cons word words ih =>
      obtain ⟨⟨some, here⟩, there⟩ := List.forall_mem_cons.mp whole
      have kept : ∀ d ∈ words.flatMap capitalized, isWordChar d = true := by
        intro d member
        obtain ⟨other, among, inside⟩ := List.mem_flatMap.mp member
        exact isWordChar_of_mem_capitalized (there other among).2 inside
      have apart : (∀ d ∈ (words.flatMap capitalized).head?,
          isCapital d = true ∧ isLoneLetter (String.ofList word) = false) ↔
          ∀ next ∈ (words.map String.ofList).head?, KeepsApart (String.ofList word) next := by
        cases words with
        | nil => simp
        | cons next words =>
            obtain ⟨nonempty, inside⟩ := there next List.mem_cons_self
            rw [head?_flatMap_capitalized nonempty]
            simp only [List.map_cons, List.head?_cons, Option.mem_some_iff, forall_eq',
              KeepsApart, ← any_isCapital_head?_capitalized inside]
            cases next with
            | nil => exact absurd rfl nonempty
            | cons c tail => simp [capitalized]
      have raised : capitalized word ≠ [] := by
        rw [← List.length_pos_iff, length_capitalized]
        exact List.length_pos_of_ne_nil some
      rw [List.flatMap_cons, List.map_cons, ← map_toLower_capitalized here,
        loweredWords_append_iff raised fun d => isWordChar_of_mem_capitalized here,
        ends_capitalized_iff some here kept, apart, ih there, List.map_cons, List.isChain_cons]

/-- A name in `PascalCase` has the words of the name, up to capitals, exactly if every two
words that follow each other are told apart. -/
theorem loweredWords_pascal_iff (name : String) :
    loweredWords (pascal name).toList = loweredWords name.toList ↔
      (words name).IsChain KeepsApart := by
  rw [toList_pascal]
  exact loweredWords_flatMap_capitalized_iff fun _ member => isWordChar_of_mem_wordsOf member

end LexiconCompiler.Name
