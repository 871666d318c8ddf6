import LexiconCompiler.Proofs.Json.Series

/-!
# Reading what is written

A value that is written on one line reads back as that value. No object in the value may
give a key twice, its whole numbers may not be too long, its real numbers are spelled as
numbers, and its containers may not be nested too deep.
-/

namespace LexiconCompiler.Json

variable {α : Type} {text : List Char} {written : List (List Char)} {values : List α}
  {container : Container} {entry : List Char → Except Refusal (Parsed α)}
  {build : List α → Json} {depth : Nat} {value : Json}

/-! ## Whole numbers -/

/-- The numeral of a whole number. -/
def Numeral.ofInt (value : Int) : Numeral where
  negative := decide (value < 0)
  whole := Nat.toDigits 10 value.natAbs
  fraction := []
  exponent := []

theorem Numeral.spelling_ofInt (value : Int) : (ofInt value).spelling = writeInt value := by
  cases value with
  | ofNat size => simp [spelling, ofInt, writeInt]
  | negSucc size => simp [spelling, ofInt, writeInt]

/-- Digits start with a zero only if the number is zero. -/
theorem eq_zero_of_head?_toDigits {number : Nat}
    (zero : (Nat.toDigits 10 number).head? = some '0') : number = 0 := by
  induction number using Nat.strongRecOn with
  | ind number ih =>
      rw [Nat.toDigits_eq_if (by decide)] at zero
      split at zero
      · rename_i small
        have table : ∀ number < 10, Nat.digitChar number = '0' → number = 0 := by decide
        exact table number small (Option.some.inj zero)
      · rename_i large
        rw [List.head?_append_of_ne_nil _ Nat.toDigits_ne_nil] at zero
        have none := ih (number / 10) (by omega) zero
        omega

theorem Numeral.proper_ofInt (value : Int) : (ofInt value).Proper where
  digits := ⟨Nat.toDigits_ne_nil, fun _ => Nat.isDigit_of_mem_toDigits (by decide) (by decide)⟩
  leading := by
    intro zero
    rw [ofInt, eq_zero_of_head?_toDigits zero]
    rfl
  fraction := .inl rfl
  exponent := .inl rfl

theorem Numeral.wholeValue_ofInt (value : Int) : (ofInt value).wholeValue = value := by
  have digits : Nat.ofDigitChars 10 (Nat.toDigits 10 value.natAbs) 0 = value.natAbs :=
    Nat.ofDigitChars_toDigits (by decide) (by decide)
  simp only [wholeValue, ofInt, digits, decide_eq_true_eq]
  omega

theorem numeralValue_ofInt {value : Int}
    (short : (Nat.toDigits 10 value.natAbs).length ≤ Refusal.digitLimit) :
    numeralValue (Numeral.ofInt value) = .ok (.int value) := by
  have whole : (Numeral.ofInt value).isWhole = true := rfl
  have readable : ¬ Refusal.digitLimit < (Numeral.ofInt value).whole.length :=
    Nat.not_lt.mpr short
  rw [numeralValue, if_pos whole, if_neg readable, Numeral.wholeValue_ofInt]

/-! ## Values that can be read back -/

/-- A text can be written for a value that is nested at most so deep, and read back. -/
inductive Readable : (depth : Nat) → Json → Prop where
  | null {depth : Nat} : Readable depth .null
  | bool {depth : Nat} (value : Bool) : Readable depth (.bool value)
  /-- A whole number is not too long. -/
  | int {depth : Nat} {value : Int}
      (short : (Nat.toDigits 10 value.natAbs).length ≤ Refusal.digitLimit) :
      Readable depth (.int value)
  /-- A real number is spelled with a fraction or an exponent. -/
  | real {depth : Nat} {numeral : Numeral} (proper : numeral.Proper)
      (broken : numeral.isWhole = false) :
      Readable depth (.real (String.ofList numeral.spelling))
  /-- What is not a finite number is spelled by a word. -/
  | special {depth : Nat} {word : String} (known : (word, .real word) ∈ valueWords) :
      Readable depth (.real word)
  | str {depth : Nat} (value : String) : Readable depth (.str value)
  | arr {depth : Nat} {items : List Json} (inside : ∀ item ∈ items, Readable depth item) :
      Readable (depth + 1) (.arr items)
  /-- No key is given twice. -/
  | obj {depth : Nat} {members : List (String × Json)}
      (distinct : (members.map Prod.fst).Nodup)
      (inside : ∀ entry ∈ members, Readable depth entry.2) : Readable (depth + 1) (.obj members)

@[simp] theorem readable_null : Readable depth .null := .null

@[simp] theorem readable_str (value : String) : Readable depth (.str value) := .str value

@[simp] theorem readable_int_iff {value : Int} :
    Readable depth (.int value) ↔ (Nat.toDigits 10 value.natAbs).length ≤ Refusal.digitLimit := by
  constructor
  · rintro ⟨⟩
    assumption
  · exact .int

@[simp] theorem readable_arr_iff {items : List Json} :
    Readable (depth + 1) (.arr items) ↔ ∀ item ∈ items, Readable depth item := by
  constructor
  · rintro ⟨⟩
    assumption
  · exact .arr

@[simp] theorem readable_obj_iff {members : List (String × Json)} :
    Readable (depth + 1) (.obj members) ↔
      (members.map Prod.fst).Nodup ∧ ∀ entry ∈ members, Readable depth entry.2 := by
  constructor
  · rintro ⟨⟩
    exact ⟨‹_›, ‹_›⟩
  · intro ⟨distinct, inside⟩
    exact .obj distinct inside

/-- A text starts with a character that delimits nothing. -/
def Starts (text : List Char) : Prop :=
  ∃ c after, text = c :: after ∧ isDelimiter c = false

theorem Starts.unlaid (starts : Starts text) : Unlaid text := by
  obtain ⟨c, after, rfl, other⟩ := starts
  simp only [isDelimiter, Bool.or_eq_false_iff] at other
  rw [unlaid_cons, other.1.1.1]

theorem Starts.ne_nil (starts : Starts text) : text ≠ [] := by
  obtain ⟨c, after, rfl, _⟩ := starts
  exact List.cons_ne_nil c after

theorem Starts.append (starts : Starts text) (rest : List Char) : Starts (text ++ rest) := by
  obtain ⟨c, after, rfl, other⟩ := starts
  exact ⟨c, after ++ rest, rfl, other⟩

theorem Starts.head?_ne (starts : Starts text) : text.head? ≠ some container.closing := by
  obtain ⟨c, after, rfl, other⟩ := starts
  rintro ⟨⟩
  cases other.symm.trans container.isDelimiter_closing.1

theorem StartsPlain.starts (starts : StartsPlain text) : Starts text := by
  obtain ⟨c, after, rfl, plain⟩ := starts
  simp only [isSpecial, Bool.or_eq_false_iff] at plain
  exact ⟨c, after, rfl, plain.1.1.1⟩

theorem startsPlain_writeInt (value : Int) : StartsPlain (writeInt value) := by
  rw [← Numeral.spelling_ofInt]
  exact (Numeral.proper_ofInt value).startsPlain

theorem Readable.starts (readable : value.Readable depth) : Starts (write value) := by
  cases readable with
  | null => exact ⟨_, _, rfl, by decide⟩
  | bool value => cases value <;> exact ⟨_, _, rfl, by decide⟩
  | int short => exact (startsPlain_writeInt _).starts
  | real proper broken =>
      rw [write, String.toList_ofList]
      exact proper.startsPlain.starts
  | special known => exact (startsPlain_of_mem_valueWords known).starts
  | str value => exact ⟨_, _, rfl, by decide⟩
  | arr inside => exact ⟨_, _, rfl, by decide⟩
  | obj distinct inside => exact ⟨_, _, rfl, by decide⟩

/-! ## Containers -/

/-- Texts with commas and blanks between them start as the first of them does. -/
theorem starts_intercalate (any : written ≠ []) (starts : ∀ text ∈ written, Starts text) :
    Starts ([',', ' '].intercalate written) := by
  cases written with
  | nil => exact absurd rfl any
  | cons first others =>
      have here := starts first List.mem_cons_self
      cases others with
      | nil =>
          rw [List.intercalate_singleton]
          exact here
      | cons second others =>
          rw [List.intercalate_cons_cons, List.append_assoc]
          exact here.append _

/-- Entries with commas and blanks between them fill a container. -/
theorem fills_intercalate (takes : List.Forall₂ (Takes entry) written values)
    (starts : ∀ text ∈ written, Starts text) (any : written ≠ []) :
    Fills container entry ([',', ' '].intercalate written ++ [container.closing]) values := by
  induction takes with
  | nil => exact absurd rfl any
  | @cons first value others values here later ih =>
      cases others with
      | nil =>
          cases later
          rw [List.intercalate_singleton]
          exact Fills.last here isLayout_of_mem_nil
      | cons second others =>
          have begin : ∀ text ∈ second :: others, Starts text :=
            fun text member => starts text (List.mem_cons_of_mem _ member)
          have goesOn := (starts_intercalate (List.cons_ne_nil _ _) begin).append
            [container.closing]
          have more := Fills.more here isLayout_of_mem_nil isLayout_of_mem_blank goesOn.unlaid
            (ih begin (List.cons_ne_nil _ _))
          rw [List.intercalate_cons_cons]
          simpa using more

/-- A container is taken with its closing bracket. -/
theorem takes_intercalate (takes : List.Forall₂ (Takes entry) written values)
    (starts : ∀ text ∈ written, Starts text) :
    Takes (readContainer container entry build)
      ([',', ' '].intercalate written ++ [container.closing]) (build values) := by
  by_cases any : written = []
  · subst any
    cases takes
    exact takes_readContainer_nil isLayout_of_mem_nil
  · have begins := (starts_intercalate any starts).append [container.closing]
    rw [← List.nil_append (_ ++ _)]
    exact takes_readContainer isLayout_of_mem_nil (fills_intercalate takes starts any) begins.unlaid
      begins.head?_ne

/-! ## Values -/

theorem writeItems_eq (items : List Json) : writeItems items = items.map write := by
  induction items with
  | nil => rfl
  | cons item items ih => rw [writeItems, ih, List.map_cons]

/-- A member as it is written. -/
def writeMember (member : String × Json) : List Char :=
  writeString member.1.toList ++ ':' :: ' ' :: write member.2

theorem writeMembers_eq (members : List (String × Json)) :
    writeMembers members = members.map writeMember := by
  induction members with
  | nil => rfl
  | cons member members ih => rw [writeMembers, ih, List.map_cons, writeMember]

theorem starts_writeMember (member : String × Json) : Starts (writeMember member) :=
  ⟨'"', _, rfl, by decide⟩

/-- A member is taken with its key if its value is taken. -/
theorem takes_writeMember {read : List Char → Except Refusal (Parsed Json)}
    {member : String × Json} (takes : Takes read (write member.2) member.2)
    (starts : Starts (write member.2)) :
    Takes (readMember read) (writeMember member) member := by
  have key := takesKey (readString_written member.1) isLayout_of_mem_nil isLayout_of_mem_blank
  have whole := takes_readMember key takes starts.unlaid starts.ne_nil
  simpa [writeMember, writeString] using whole

/-- A word that is written for a value reads back as the value. -/
theorem takes_word {word : String} (member : (word, value) ∈ valueWords) (depth : Nat) :
    Takes (readValue depth) word.toList value := by
  have starts := startsPlain_of_mem_valueWords member
  have takes := takes_readScalar_word member
  cases depth <;> exact takes_scalar starts.not_opens starts.starts.ne_nil takes

theorem takes_numeral {numeral : Numeral} (proper : numeral.Proper)
    (valued : numeralValue numeral = .ok value) (depth : Nat) :
    Takes (readValue depth) numeral.spelling value := by
  have starts := proper.startsPlain
  have takes := takes_readScalar proper valued
  cases depth <;> exact takes_scalar starts.not_opens starts.starts.ne_nil takes

/-- What is written for a value is taken for that value. -/
theorem Readable.takes (readable : value.Readable depth) :
    Takes (readValue depth) (write value) value := by
  induction readable with
  | null => exact takes_word (by simp [valueWords]) _
  | bool value =>
      cases value
      · exact takes_word (by simp [valueWords]) _
      · exact takes_word (by simp [valueWords]) _
  | @int depth value short =>
      rw [write, ← Numeral.spelling_ofInt]
      exact takes_numeral (Numeral.proper_ofInt value) (numeralValue_ofInt short) depth
  | @real depth numeral proper broken =>
      rw [write, String.toList_ofList]
      refine takes_numeral proper ?_ depth
      rw [numeralValue, broken, if_neg Bool.false_ne_true]
  | special known => exact takes_word known _
  | @str depth value =>
      cases depth <;> exact takes_string (readString_written value)
  | @arr depth items inside ih =>
      rw [write, writeItems_eq]
      refine takes_array (takes_intercalate ?_ ?_)
      · rw [List.forall₂_map_left_iff, List.forall₂_same]
        exact ih
      · intro text member
        obtain ⟨item, found, rfl⟩ := List.mem_map.mp member
        exact (inside item found).starts
  | @obj depth members distinct inside ih =>
      rw [write, writeMembers_eq]
      refine takes_object ?_
      have takes : Takes (readContainer .object (readMember (readValue depth))
          fun members => .obj (Table.ofList members).entries)
          ([',', ' '].intercalate (members.map writeMember) ++ ['\x7d'])
          (.obj (Table.ofList members).entries) := by
        refine takes_intercalate ?_ ?_
        · rw [List.forall₂_map_left_iff, List.forall₂_same]
          exact fun entry member => takes_writeMember (ih entry member) (inside entry member).starts
        · intro text member
          obtain ⟨entry, _, rfl⟩ := List.mem_map.mp member
          exact starts_writeMember entry
      rw [Table.entries_ofList distinct] at takes
      exact takes

/-- A text that is written for a value reads back as the value. -/
theorem read_write {depth : Nat} (readable : value.Readable depth) :
    Json.read depth (write value) = .ok value := by
  have taken := readable.takes [] ended_nil
  rw [List.append_nil] at taken
  rw [Json.read, skipLayout_of_unlaid readable.starts.unlaid, taken]
  rfl

end LexiconCompiler.Json
