import LexiconCompiler.Name.Identifier
import LexiconCompiler.Name.Qualified

/-!
# The characters of generated names

Words are made of ASCII letters and digits only, and so are the names made from them. A
name in `PascalCase` does not start with a small letter.
-/

namespace LexiconCompiler.Name

/-- What can be checked for every character of ASCII holds of each of them. -/
theorem forall_ascii (test : Char → Bool)
    (table : ∀ code < 128, test (Char.ofNat code) = true) {c : Char} (ascii : c.toNat < 128) :
    test c = true := by
  have checked := table c.toNat ascii
  rwa [Char.ofNat_toNat] at checked

/-- Whether a character may stand in a word. -/
def isWordChar (c : Char) : Bool :=
  isSmallOrDigit c || isCapital c

theorem toNat_lt_of_isWordChar {c : Char} (inside : isWordChar c = true) : c.toNat < 128 := by
  simp only [isWordChar, isSmallOrDigit, isCapital, Bool.or_eq_true, decide_eq_true_eq,
    Char.le_def, UInt32.le_iff_toNat_le] at inside
  change c.val.toNat < 128
  have small : 'z'.val.toNat = 122 := rfl
  have digit : '9'.val.toNat = 57 := rfl
  have capital : 'Z'.val.toNat = 90 := rfl
  omega

/-- What can be checked for the letters and digits among the characters of ASCII holds of
every letter and digit. -/
theorem forall_isWordChar (property : Char → Prop)
    (table : ∀ code < 128, isWordChar (Char.ofNat code) = true → property (Char.ofNat code))
    {c : Char} (inside : isWordChar c = true) : property c := by
  have checked := table c.toNat (toNat_lt_of_isWordChar inside)
  rw [Char.ofNat_toNat] at checked
  exact checked inside

/-! ## Letters and digits -/

variable {c : Char}

theorem isWordChar_of_isSmallOrDigit (small : isSmallOrDigit c = true) : isWordChar c = true := by
  rw [isWordChar, small, Bool.true_or]

theorem isWordChar_of_isCapital (capital : isCapital c = true) : isWordChar c = true := by
  rw [isWordChar, capital, Bool.or_true]

theorem isWordChar_toUpper (inside : isWordChar c = true) : isWordChar c.toUpper = true :=
  forall_isWordChar (fun c => isWordChar c.toUpper = true) (by decide) inside

theorem isWordChar_toLower (inside : isWordChar c = true) : isWordChar c.toLower = true :=
  forall_isWordChar (fun c => isWordChar c.toLower = true) (by decide) inside

theorem isLower_toUpper (inside : isWordChar c = true) : c.toUpper.isLower = false :=
  forall_isWordChar (fun c => c.toUpper.isLower = false) (by decide) inside

theorem isAlpha_toUpper (inside : isWordChar c = true) : c.toUpper.isAlpha = c.isAlpha :=
  forall_isWordChar (fun c => c.toUpper.isAlpha = c.isAlpha) (by decide) inside

theorem isCapital_toUpper (inside : isWordChar c = true) : isCapital c.toUpper = c.isAlpha :=
  forall_isWordChar (fun c => isCapital c.toUpper = c.isAlpha) (by decide) inside

theorem isCapital_toLower (inside : isWordChar c = true) : isCapital c.toLower = false :=
  forall_isWordChar (fun c => isCapital c.toLower = false) (by decide) inside

theorem isSmallOrDigit_toLower (inside : isWordChar c = true) :
    isSmallOrDigit c.toLower = true :=
  forall_isWordChar (fun c => isSmallOrDigit c.toLower = true) (by decide) inside

theorem isSmallOrDigit_toUpper (inside : isWordChar c = true) :
    isSmallOrDigit c.toUpper = c.isDigit :=
  forall_isWordChar (fun c => isSmallOrDigit c.toUpper = c.isDigit) (by decide) inside

theorem toUpper_toLower (inside : isWordChar c = true) : c.toLower.toUpper = c.toUpper :=
  forall_isWordChar (fun c => c.toLower.toUpper = c.toUpper) (by decide) inside

theorem toLower_toUpper (inside : isWordChar c = true) : c.toUpper.toLower = c.toLower :=
  forall_isWordChar (fun c => c.toUpper.toLower = c.toLower) (by decide) inside

theorem isDigit_of_not_isAlpha (inside : isWordChar c = true) (other : c.isAlpha = false) :
    c.isDigit = true :=
  forall_isWordChar (fun c => c.isAlpha = false → c.isDigit = true) (by decide) inside other

theorem isCapital_eq (inside : isWordChar c = true) :
    isCapital c = (c.isAlpha && !c.isLower) :=
  forall_isWordChar (fun c => isCapital c = (c.isAlpha && !c.isLower)) (by decide) inside

theorem toUpper_of_isCapital (capital : isCapital c = true) : c.toUpper = c :=
  forall_isWordChar (fun c => isCapital c = true → c.toUpper = c) (by decide)
    (isWordChar_of_isCapital capital) capital

theorem toLower_ne_of_isCapital (capital : isCapital c = true) : c.toLower ≠ c :=
  forall_isWordChar (fun c => isCapital c = true → c.toLower ≠ c) (by decide)
    (isWordChar_of_isCapital capital) capital

theorem isLower_of_isCapital (capital : isCapital c = true) : c.isLower = false :=
  forall_isWordChar (fun c => isCapital c = true → c.isLower = false) (by decide)
    (isWordChar_of_isCapital capital) capital

theorem isSmallOrDigit_of_isCapital (capital : isCapital c = true) : isSmallOrDigit c = false :=
  forall_isWordChar (fun c => isCapital c = true → isSmallOrDigit c = false) (by decide)
    (isWordChar_of_isCapital capital) capital

theorem toLower_of_isSmallOrDigit (small : isSmallOrDigit c = true) : c.toLower = c :=
  forall_isWordChar (fun c => isSmallOrDigit c = true → c.toLower = c) (by decide)
    (isWordChar_of_isSmallOrDigit small) small

theorem toUpper_eq_iff_of_isSmallOrDigit (small : isSmallOrDigit c = true) :
    c.toUpper = c ↔ c.isLower = false :=
  forall_isWordChar (fun c => isSmallOrDigit c = true → (c.toUpper = c ↔ c.isLower = false))
    (by decide) (isWordChar_of_isSmallOrDigit small) small

theorem isCapital_of_isSmallOrDigit (small : isSmallOrDigit c = true) : isCapital c = false :=
  forall_isWordChar (fun c => isSmallOrDigit c = true → isCapital c = false) (by decide)
    (isWordChar_of_isSmallOrDigit small) small

theorem isCapital_of_not_isSmallOrDigit (inside : isWordChar c = true)
    (other : isSmallOrDigit c = false) : isCapital c = true := by
  rwa [isWordChar, other, Bool.false_or] at inside

theorem isSmallOrDigit_of_not_isCapital (inside : isWordChar c = true)
    (other : isCapital c = false) : isSmallOrDigit c = true := by
  rwa [isWordChar, other, Bool.or_false] at inside

theorem isSmallOrDigit_of_not_isWordChar (dropped : isWordChar c = false) :
    isSmallOrDigit c = false :=
  (Bool.or_eq_false_iff.mp dropped).1

theorem isCapital_of_not_isWordChar (dropped : isWordChar c = false) : isCapital c = false :=
  (Bool.or_eq_false_iff.mp dropped).2

theorem isLower_of_not_isSmallOrDigit (other : isSmallOrDigit c = false) :
    c.isLower = false := by
  simp only [isSmallOrDigit, Bool.or_eq_false_iff, decide_eq_false_iff_not] at other
  rw [Bool.eq_false_iff]
  intro lower
  obtain ⟨low, high⟩ := Bool.and_eq_true_iff.mp lower
  exact other.1 ⟨of_decide_eq_true low, of_decide_eq_true high⟩

/-! ## Words and names -/

theorem isWordChar_of_mem_firstWord {text word rest : List Char}
    (found : firstWord text = some (word, rest)) {c : Char} (member : c ∈ word) :
    isWordChar c = true := by
  have smalls : ∀ {text : List Char}, c ∈ text.takeWhile isSmallOrDigit →
      isWordChar c = true := by
    intro text inside
    have small := List.all_eq_true.mp (List.all_takeWhile (p := isSmallOrDigit)) c inside
    simp [isWordChar, small]
  have capitals : ∀ {text : List Char}, c ∈ text.takeWhile isCapital →
      isWordChar c = true := by
    intro text inside
    have capital := List.all_eq_true.mp (List.all_takeWhile (p := isCapital)) c inside
    simp [isWordChar, capital]
  cases text with
  | nil => cases found
  | cons first tail =>
      simp only [firstWord] at found
      split at found
      · rename_i small
        cases found
        rcases List.mem_cons.mp member with rfl | inside
        · simp [isWordChar, small]
        · exact smalls inside
      · split at found
        · rename_i capital
          split at found
          · cases found
            rcases List.mem_cons.mp member with rfl | inside
            · simp [isWordChar, capital]
            · exact capitals inside
          · rename_i following _
            cases found
            rcases List.mem_cons.mp member with rfl | inside
            · simp [isWordChar, capital]
            · exact smalls inside
        · cases found

theorem ne_nil_of_firstWord {text word rest : List Char}
    (found : firstWord text = some (word, rest)) : word ≠ [] := by
  intro empty
  have shorter := length_lt_of_firstWord found
  have whole := append_eq_of_firstWord found
  rw [empty, List.nil_append] at whole
  rw [whole] at shorter
  exact Nat.lt_irrefl _ shorter

/-- Every word of a text has letters and digits, and nothing else. -/
theorem isWordChar_of_mem_wordsOf {text word : List Char} (member : word ∈ wordsOf text) :
    word ≠ [] ∧ ∀ c ∈ word, isWordChar c = true := by
  fun_induction wordsOf text with
  | case1 text first rest found ih =>
      rcases List.mem_cons.mp member with rfl | later
      · exact ⟨ne_nil_of_firstWord found, fun c inside => isWordChar_of_mem_firstWord found inside⟩
      · exact ih later
  | case2 => cases member
  | case3 c rest absent ih => exact ih member

theorem isWordChar_of_mem_capitalized {word : List Char}
    (inside : ∀ c ∈ word, isWordChar c = true) {c : Char} (member : c ∈ capitalized word) :
    isWordChar c = true := by
  cases word with
  | nil => cases member
  | cons first rest =>
      rcases List.mem_cons.mp member with rfl | later
      · exact isWordChar_toUpper (inside first List.mem_cons_self)
      · obtain ⟨d, found, rfl⟩ := List.mem_map.mp later
        exact isWordChar_toLower (inside d (List.mem_cons_of_mem _ found))

theorem isWordChar_of_mem_pascalOf {text : List Char} {c : Char} (member : c ∈ pascalOf text) :
    isWordChar c = true := by
  obtain ⟨word, found, inside⟩ := List.mem_flatMap.mp member
  exact isWordChar_of_mem_capitalized (isWordChar_of_mem_wordsOf found).2 inside

/-- A name in `PascalCase` does not start with a small letter. -/
theorem isLower_head_pascalOf {text rest : List Char} {c : Char}
    (starts : pascalOf text = c :: rest) : c.isLower = false := by
  cases split : wordsOf text with
  | nil => simp [pascalOf, split] at starts
  | cons word words =>
      have member : word ∈ wordsOf text := by rw [split]; exact List.mem_cons_self
      have valid := isWordChar_of_mem_wordsOf member
      cases word with
      | nil => exact absurd rfl valid.1
      | cons first others =>
          simp only [pascalOf, split, List.flatMap_cons, capitalized, List.cons_append,
            List.cons.injEq] at starts
          rw [← starts.1]
          exact isLower_toUpper (valid.2 first List.mem_cons_self)

theorem isWordChar_of_mem_className {id : String} {c : Char}
    (member : c ∈ (className id).toList) : isWordChar c = true := by
  rw [className, toList_pascal] at member
  exact isWordChar_of_mem_pascalOf member

theorem isLower_head_className {id : String} {rest : List Char} {c : Char}
    (starts : (className id).toList = c :: rest) : c.isLower = false := by
  rw [className, toList_pascal] at starts
  exact isLower_head_pascalOf starts

end LexiconCompiler.Name
