import LexiconCompiler.Proofs.Name.FirstWord

/-!
# Boundaries of words

Words are read off a name from left to right, each as long as it can be, so where one ends
might depend on all that stands before. It does not: between two neighbours there is a
boundary exactly if a capital follows a small letter or a digit, or if a run of at least
two capitals ends. To say so, words are numbered, and a letter or digit of a name has the
number of the word that it stands in.
-/

namespace LexiconCompiler.Name

variable {text word rest before between after : List Char} {texts : List (List Char)}
  {c d : Char} {number : Nat}

/-! ## The number of a word -/

/-- The number of the text that holds a character, where characters are numbered through
all the texts. -/
def holder : List (List Char) → Nat → Nat
  | [], _ => 0
  | text :: texts, number =>
      if number < text.length then 0 else holder texts (number - text.length) + 1

/-- The number of the word that a place of a name lies in. Words leave out no letter and no
digit, so it is found by counting those before the place. -/
def wordNumber (name : String) (place : Nat) : Nat :=
  holder ((words name).map String.toList) ((name.toList.take place).countP isWordChar)

theorem holder_of_lt (here : number < text.length) : holder (text :: texts) number = 0 :=
  if_pos here

theorem holder_add (text : List Char) (texts : List (List Char)) (number : Nat) :
    holder (text :: texts) (text.length + number) = holder texts number + 1 := by
  rw [holder, if_neg (by omega), Nat.add_sub_cancel_left]

/-- A character of two texts is one of the first, or behind it in the second. -/
theorem cases_of_append_eq (whole : word ++ rest = before ++ c :: after) :
    (∃ more, before = word ++ more ∧ rest = more ++ c :: after) ∨
      ∃ more, word = before ++ c :: more ∧ after = more ++ rest := by
  rcases List.append_eq_append_iff.mp whole with ⟨more, first, second⟩ | ⟨more, first, second⟩
  · exact .inl ⟨more, first, second⟩
  · cases more with
    | nil => exact .inl ⟨[], by simpa using first.symm, second.symm⟩
    | cons e more =>
        cases second
        exact .inr ⟨more, first, rfl⟩

/-- A character stands in the text of its number, behind all earlier texts. -/
theorem getElem?_holder (split : texts.flatten = before ++ c :: after) :
    ∃ first second, texts[holder texts before.length]? = some (first ++ c :: second) ∧
      before = (texts.take (holder texts before.length)).flatten ++ first := by
  induction texts generalizing before with
  | nil => simp at split
  | cons text texts ih =>
      rcases cases_of_append_eq split with ⟨more, rfl, later⟩ | ⟨second, rfl, _⟩
      · obtain ⟨first, second, found, same⟩ := ih later
        rw [List.length_append, holder_add]
        refine ⟨first, second, ?_, ?_⟩
        · rw [List.getElem?_cons_succ, found]
        · rw [List.take_succ_cons, List.flatten_cons, List.append_assoc, ← same]
      · have here : before.length < (before ++ c :: second).length := by simp
        rw [holder_of_lt here]
        exact ⟨before, second, rfl, rfl⟩

theorem holder_append_lt (later : List (List Char)) (here : number < texts.flatten.length) :
    holder (texts ++ later) number < texts.length := by
  induction texts generalizing number with
  | nil => cases here
  | cons text texts ih =>
      rw [List.flatten_cons, List.length_append] at here
      rw [List.cons_append, holder, List.length_cons]
      split
      · exact Nat.zero_lt_succ _
      · exact Nat.succ_lt_succ (ih (by omega))

theorem le_holder_append (later : List (List Char)) (there : texts.flatten.length ≤ number) :
    texts.length ≤ holder (texts ++ later) number := by
  induction texts generalizing number with
  | nil => exact Nat.zero_le _
  | cons text texts ih =>
      rw [List.flatten_cons, List.length_append] at there
      rw [List.cons_append, holder, if_neg (by omega), List.length_cons]
      exact Nat.succ_le_succ (ih (by omega))

theorem map_toList_words (name : String) :
    (words name).map String.toList = wordsOf name.toList := by
  rw [words, List.map_map]
  simp [Function.comp_def]

theorem length_flatten_wordsOf (text : List Char) :
    (wordsOf text).flatten.length = text.countP isWordChar := by
  rw [flatten_wordsOf, List.countP_eq_length_filter]

theorem wordNumber_of_split {name : String} (split : name.toList = before ++ after) :
    wordNumber name before.length = holder (wordsOf name.toList) (before.countP isWordChar) := by
  rw [wordNumber, map_toList_words, split, List.take_left]

/-- A character that is dropped stands between letters and digits of different words. -/
theorem holder_lt_of_dropped (kept : isWordChar c = true)
    (dropped : ∃ e ∈ between, isWordChar e = false) :
    holder (wordsOf (before ++ c :: between ++ after)) (before.countP isWordChar) <
      holder (wordsOf (before ++ c :: between ++ after))
        ((before ++ c :: between).countP isWordChar) := by
  obtain ⟨e, member, skipped⟩ := dropped
  obtain ⟨first, second, rfl⟩ := List.append_of_mem member
  have parted : before ++ c :: (first ++ e :: second) ++ after =
      (before ++ c :: first) ++ e :: (second ++ after) := by
    simp
  rw [parted, wordsOf_append_cons skipped]
  calc holder _ (before.countP isWordChar)
      < (wordsOf (before ++ c :: first)).length := by
        apply holder_append_lt
        rw [length_flatten_wordsOf, List.countP_append, List.countP_cons_of_pos kept]
        omega
    _ ≤ holder _ ((before ++ c :: (first ++ e :: second)).countP isWordChar) := by
        apply le_holder_append
        rw [length_flatten_wordsOf]
        simp only [List.countP_append, List.countP_cons]
        omega

/-! ## The local rule -/

/-- Whether there is a boundary between two neighbours `c` and `d`, where `before` is what
stands right before them. -/
def isBoundary (before : Option Char) (c d : Char) : Bool :=
  isSmallOrDigit c && isCapital d || isCapital c && isSmallOrDigit d && before.any isCapital

theorem isBoundary_of_smalls {before : Option Char} (first : isSmallOrDigit c = true)
    (second : isSmallOrDigit d = true) : isBoundary before c d = false := by
  simp [isBoundary, isCapital_of_isSmallOrDigit first, isCapital_of_isSmallOrDigit second]

theorem isBoundary_of_capitals {before : Option Char} (first : isCapital c = true)
    (second : isCapital d = true) : isBoundary before c d = false := by
  simp [isBoundary, isSmallOrDigit_of_isCapital first, isSmallOrDigit_of_isCapital second]

/-- What stands before matters only if it is a capital, and so is what it stands before. -/
theorem isBoundary_append (rest : List Char)
    (apart : rest = [] → ∀ b ∈ text.getLast?, isCapital b = true → isCapital c = false) :
    isBoundary (text ++ rest).getLast? c d = isBoundary rest.getLast? c d := by
  cases rest with
  | nil =>
      rw [List.append_nil]
      cases ends : text.getLast? with
      | none => rfl
      | some b =>
          have either := apart rfl b ends
          cases capital : isCapital b with
          | false => simp [isBoundary, capital]
          | true => simp [isBoundary, either capital]
  | cons e rest => simp [List.getLast?_append, List.getLast?_cons]

/-- There is no boundary inside a word. -/
theorem Ends.isBoundary_inside (ends : Ends (before ++ c :: d :: between) rest) :
    isBoundary before.getLast? c d = false := by
  have first : c ∈ before ++ c :: d :: between := by simp
  have second : d ∈ before ++ c :: d :: between := by simp
  generalize shown : before ++ c :: d :: between = word at ends first second
  cases ends with
  | smalls all stops => exact isBoundary_of_smalls (all c first) (all d second)
  | raised capital all stops =>
      cases before with
      | nil =>
          cases shown
          simp [isBoundary, isSmallOrDigit_of_isCapital capital]
      | cons b before =>
          have others := (List.cons.inj shown).2
          apply isBoundary_of_smalls
          · exact all c (by simp [← others])
          · exact all d (by simp [← others])
  | capitals all stops alone => exact isBoundary_of_capitals (all c first) (all d second)

/-- There is a boundary behind a word. -/
theorem Ends.isBoundary_behind (ends : Ends (before ++ [c]) (d :: rest))
    (kept : isWordChar d = true) : isBoundary before.getLast? c d = true := by
  have last : c ∈ before ++ [c] := by simp
  generalize shown : before ++ [c] = word at ends last
  cases ends with
  | smalls all stops =>
      simp [isBoundary, all c last, isCapital_of_not_isSmallOrDigit kept (stops d rfl)]
  | raised capital all stops =>
      cases before with
      | nil => cases shown
      | cons b before =>
          have small := all c (by simp [← (List.cons.inj shown).2])
          simp [isBoundary, small, isCapital_of_not_isSmallOrDigit kept (stops d rfl)]
  | @capitals e tail _ all stops alone =>
      have small := isSmallOrDigit_of_not_isCapital kept (stops d rfl)
      rcases List.eq_nil_or_concat before with rfl | ⟨before, b, rfl⟩
      · cases shown
        rw [alone rfl d rfl] at small
        cases small
      · have capital := all b (by simp [← shown])
        simp [isBoundary, all c last, small, capital]

/-- A capital does not begin a word right behind another capital. -/
theorem Ends.isCapital_behind (ends : Ends word (c :: rest)) :
    ∀ b ∈ word.getLast?, isCapital b = true → isCapital c = false := by
  intro b last capital
  have member := List.mem_of_getLast? last
  cases ends with
  | smalls all stops =>
      rw [isCapital_of_isSmallOrDigit (all b member)] at capital
      cases capital
  | raised _ all stops =>
      rw [List.getLast?_cons_cons] at last
      rw [isCapital_of_isSmallOrDigit (all b (List.mem_of_getLast? last))] at capital
      cases capital
  | capitals all stops alone => exact stops c rfl

/-- Neighbours stand in one word exactly if there is no boundary between them. -/
theorem holder_eq_succ_iff (first : isWordChar c = true) (second : isWordChar d = true)
    (whole : text = before ++ c :: d :: after) :
    holder (wordsOf text) (before.countP isWordChar) =
        holder (wordsOf text) (before.countP isWordChar + 1) ↔
      isBoundary before.getLast? c d = false := by
  induction text using wordsOf.induct generalizing before with
  | case1 text word rest found ih =>
      have ends := ends_of_firstWord found
      have counts : ∀ {part : List Char}, part ⊆ word → part.countP isWordChar = part.length :=
        fun part => List.countP_eq_length.mpr fun _ member =>
          isWordChar_of_mem_firstWord found (part member)
      rw [wordsOf_of_firstWord found]
      rw [← append_eq_of_firstWord found] at whole
      rcases cases_of_append_eq whole with ⟨more, rfl, rfl⟩ | ⟨more, rfl, later⟩
      · -- both behind the word
        rw [List.countP_append, counts (List.Subset.refl word), Nat.add_assoc, holder_add,
          holder_add, Nat.add_right_cancel_iff, ih rfl, isBoundary_append]
        rintro rfl
        exact ends.isCapital_behind
      · rw [counts (List.subset_append_left before (c :: more))]
        have here : before.length < (before ++ c :: more).length := by simp
        cases more with
        | nil =>
            -- the word ends between them
            cases later
            have next : before.length + 1 = (before ++ [c]).length + 0 := by simp
            rw [holder_of_lt here, next, holder_add, ends.isBoundary_behind second]
            simp
        | cons e more =>
            -- both in the word
            cases later
            have there : before.length + 1 < (before ++ c :: d :: more).length := by simp
            rw [holder_of_lt here, holder_of_lt there, ends.isBoundary_inside]
            simp
  | case2 => simp at whole
  | case3 e rest absent ih =>
      have skipped := isWordChar_of_firstWord_eq_none absent
      rw [wordsOf_cons_of_not_isWordChar skipped]
      cases before with
      | nil =>
          cases whole
          rw [skipped] at first
          cases first
      | cons b before =>
          cases whole
          rw [List.countP_cons_of_neg (by simp [skipped]), ih rfl, ← List.singleton_append,
            isBoundary_append]
          intro _ b only capital
          have same : e = b := Option.some.inj only
          rw [← same, isCapital_of_not_isWordChar skipped] at capital
          cases capital

/-! ## The words of a name -/

theorem join_words (name : String) :
    String.join (words name) = String.ofList (name.toList.filter isWordChar) := by
  rw [← String.toList_inj, String.toList_join, List.flatMap_def, map_toList_words,
    flatten_wordsOf, String.toList_ofList]

theorem ne_empty_of_mem_words {name word : String} (member : word ∈ words name) : word ≠ "" := by
  obtain ⟨original, found, rfl⟩ := List.mem_map.mp member
  simpa using (isWordChar_of_mem_wordsOf found).1

/-- A letter or digit of a name stands in the word of its number, and those before it stand
in the earlier words or before it in this one. -/
theorem getElem?_wordNumber {name : String} (split : name.toList = before ++ c :: after)
    (kept : isWordChar c = true) :
    ∃ first second,
      (words name)[wordNumber name before.length]? =
        some (String.ofList (first ++ c :: second)) ∧
      before.filter isWordChar =
        ((words name).take (wordNumber name before.length)).flatMap String.toList ++ first := by
  have letters : (wordsOf name.toList).flatten =
      before.filter isWordChar ++ c :: after.filter isWordChar := by
    rw [flatten_wordsOf, split, List.filter_append, List.filter_cons_of_pos kept]
  obtain ⟨first, second, found, same⟩ := getElem?_holder letters
  rw [wordNumber_of_split split, List.countP_eq_length_filter]
  refine ⟨first, second, ?_, ?_⟩
  · rw [words, List.getElem?_map, found, Option.map_some]
  · rw [List.flatMap_def, List.map_take, map_toList_words, ← same]

/-- Where the words of a name end. They hold its letters and digits in order, each in the
word of its number. A character that is dropped parts words, and neighbours are parted
exactly at the boundaries of the local rule. -/
theorem words_part_at_boundaries (name : String) :
    String.join (words name) = String.ofList (name.toList.filter isWordChar) ∧
      (∀ word ∈ words name, word ≠ "") ∧
      (∀ before c after, name.toList = before ++ c :: after → isWordChar c = true →
        ∃ first second,
          (words name)[wordNumber name before.length]? =
            some (String.ofList (first ++ c :: second)) ∧
          before.filter isWordChar =
            ((words name).take (wordNumber name before.length)).flatMap String.toList ++
              first) ∧
      (∀ before c between d after, name.toList = before ++ c :: between ++ d :: after →
        isWordChar c = true → isWordChar d = true → (∃ e ∈ between, isWordChar e = false) →
        wordNumber name before.length ≠ wordNumber name (before ++ c :: between).length) ∧
      ∀ before c d after, name.toList = before ++ c :: d :: after →
        isWordChar c = true → isWordChar d = true →
        (wordNumber name before.length ≠ wordNumber name (before ++ [c]).length ↔
          isSmallOrDigit c = true ∧ isCapital d = true ∨
            isCapital c = true ∧ isSmallOrDigit d = true ∧
              ∃ b, before.getLast? = some b ∧ isCapital b = true) := by
  refine ⟨join_words name, fun _ => ne_empty_of_mem_words,
    fun _ _ _ => getElem?_wordNumber, ?_, ?_⟩
  · intro before c between d after split kept _ dropped
    have here := split
    rw [List.append_assoc] at here
    rw [wordNumber_of_split here, wordNumber_of_split split, split]
    exact Nat.ne_of_lt (holder_lt_of_dropped kept dropped)
  · intro before c d after split first second
    have next : name.toList = (before ++ [c]) ++ d :: after := by simp [split]
    rw [wordNumber_of_split split, wordNumber_of_split next, List.countP_append,
      List.countP_singleton, if_pos first, ne_eq, holder_eq_succ_iff first second split,
      Bool.not_eq_false]
    simp [isBoundary, and_assoc, Option.any_eq_true]

/-- A run of capitals takes the capital of the word behind it along. -/
theorem words_part_at_boundaries_getDIDDoc :
    wordNumber "getDIDDoc" 6 ≠ wordNumber "getDIDDoc" 7 :=
  ((words_part_at_boundaries "getDIDDoc").2.2.2.2 "getDID".toList 'D' 'o' ['c'] rfl rfl rfl).mpr
    (.inr ⟨rfl, rfl, 'D', rfl, rfl⟩)

end LexiconCompiler.Name
