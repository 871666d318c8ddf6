import LexiconCompiler.Json.Reader

/-!
# Numerals in a text

A numeral that is read at the start of a text is proper: it has digits wherever they are
owed, and no zero before others. A proper numeral is read again before every rest that ends
it, so what is read does not depend on the rest.
-/

namespace LexiconCompiler.Json

variable {text rest digits : List Char} {numeral : Numeral}

/-- Whether a character may come right after a value: layout, a comma or a closing
bracket. -/
def isDelimiter (c : Char) : Bool :=
  isLayout c || c == ',' || c == ']' || c == '}'

/-- What comes after a value is empty or starts with a delimiter. -/
def Ended (rest : List Char) : Prop :=
  ∀ c ∈ rest.head?, isDelimiter c = true

theorem ended_nil : Ended [] := by
  simp [Ended]

theorem ended_cons {c : Char} : Ended (c :: rest) ↔ isDelimiter c = true := by
  simp [Ended]

/-- Whether a character delimits values, or opens a string or a container. -/
def isSpecial (c : Char) : Bool :=
  isDelimiter c || c == '"' || c == '[' || c == '\x7b'

/-- A text starts with a character of a word or a number. -/
def StartsPlain (text : List Char) : Prop :=
  ∃ c after, text = c :: after ∧ isSpecial c = false

/-! ## Digits -/

/-- A text of one or more digits. -/
def IsDigits (text : List Char) : Prop :=
  text ≠ [] ∧ ∀ c ∈ text, c.isDigit = true

/-- A text does not start with a digit. -/
def EndsDigits (rest : List Char) : Prop :=
  ∀ c ∈ rest.head?, c.isDigit = false

/-- A delimiter is neither a digit nor a character that goes on with a numeral. -/
theorem isDigit_of_isDelimiter {c : Char} (delimits : isDelimiter c = true) :
    c.isDigit = false ∧ c ≠ '.' ∧ c ≠ 'e' ∧ c ≠ 'E' := by
  simp only [isDelimiter, isLayout, Bool.or_eq_true, beq_iff_eq] at delimits
  rcases delimits with (((((rfl | rfl) | rfl) | rfl) | rfl) | rfl) | rfl <;> decide

theorem isSpecial_of_isDigit {c : Char} (digit : c.isDigit = true) : isSpecial c = false := by
  rw [← Bool.not_eq_true]
  intro special
  simp only [isSpecial, Bool.or_eq_true, beq_iff_eq] at special
  rcases special with ((delimits | rfl) | rfl) | rfl
  · rw [(isDigit_of_isDelimiter delimits).1] at digit
    cases digit
  all_goals cases digit

theorem Ended.endsDigits (ended : Ended rest) : EndsDigits rest :=
  fun c head => (isDigit_of_isDelimiter (ended c head)).1

theorem digitsAt_append (all : ∀ c ∈ digits, c.isDigit = true) (ends : EndsDigits rest) :
    digitsAt (digits ++ rest) = digits := by
  have none : rest.takeWhile Char.isDigit = [] := by
    cases rest with
    | nil => rfl
    | cons c rest => exact List.takeWhile_cons_of_neg (by simp [ends c rfl])
  rw [digitsAt, List.takeWhile_append_of_pos all, none, List.append_nil]

theorem isDigit_of_mem_digitsAt {c : Char} (member : c ∈ digitsAt text) : c.isDigit = true :=
  List.all_eq_true.mp List.all_takeWhile c member

theorem digitsAt_starts (text : List Char) : digitsAt text <+: text :=
  List.takeWhile_prefix Char.isDigit

/-! ## Fractions and exponents -/

/-- A fraction is absent, or a point and digits. -/
def IsFraction (fraction : List Char) : Prop :=
  fraction = [] ∨ ∃ digits, IsDigits digits ∧ fraction = '.' :: digits

/-- A sign is absent, a plus or a minus. -/
def IsSign (sign : List Char) : Prop :=
  sign = [] ∨ sign = ['+'] ∨ sign = ['-']

/-- An exponent is absent, or its mark, perhaps a sign, and digits. -/
def IsExponent (exponent : List Char) : Prop :=
  exponent = [] ∨ ∃ mark sign digits, (mark = 'e' ∨ mark = 'E') ∧ IsSign sign ∧
    IsDigits digits ∧ exponent = mark :: sign ++ digits

/-- What is read as a fraction is one, and the text starts with it. -/
theorem fractionAt_spec (text : List Char) :
    IsFraction (fractionAt text) ∧ fractionAt text <+: text := by
  unfold fractionAt
  split
  · rename_i rest
    split
    · exact ⟨.inl rfl, List.nil_prefix⟩
    · rename_i any
      exact ⟨.inr ⟨_, ⟨any, fun c => isDigit_of_mem_digitsAt⟩, rfl⟩,
        (List.prefix_cons_inj '.').mpr (digitsAt_starts rest)⟩
  · exact ⟨.inl rfl, List.nil_prefix⟩

theorem signAt_spec (text : List Char) : IsSign (signAt text) ∧ signAt text <+: text := by
  unfold signAt
  split
  · exact ⟨.inr (.inl rfl), by simp⟩
  · exact ⟨.inr (.inr rfl), by simp⟩
  · exact ⟨.inl rfl, List.nil_prefix⟩

theorem exponentAt_spec (text : List Char) :
    IsExponent (exponentAt text) ∧ exponentAt text <+: text := by
  cases text with
  | nil => exact ⟨.inl rfl, List.nil_prefix⟩
  | cons mark text =>
      simp only [exponentAt]
      split
      · rename_i accepted
        obtain ⟨signed, starts⟩ := signAt_spec text
        refine ⟨.inr ⟨mark, _, _, accepted.1, signed,
          ⟨accepted.2, fun c => isDigit_of_mem_digitsAt⟩, rfl⟩, ?_⟩
        rw [List.cons_append, List.prefix_cons_inj]
        have split := List.prefix_iff_eq_append.mp starts
        have follows := (List.prefix_append_right_inj (signAt text)).mpr
          (digitsAt_starts (text.drop (signAt text).length))
        rw [split] at follows
        exact follows
      · exact ⟨.inl rfl, List.nil_prefix⟩

theorem fractionAt_append {fraction : List Char} (proper : IsFraction fraction)
    (ends : EndsDigits rest) (noPoint : rest.head? ≠ some '.') :
    fractionAt (fraction ++ rest) = fraction := by
  rcases proper with rfl | ⟨digits, ⟨any, all⟩, rfl⟩
  · cases rest with
    | nil => rfl
    | cons c rest =>
        have different : c ≠ '.' := fun same => noPoint (by rw [same]; rfl)
        simp [fractionAt, different]
  · rw [List.cons_append, fractionAt, digitsAt_append all ends, if_neg any]

theorem signAt_append {sign : List Char} (proper : IsSign sign) (any : IsDigits digits) :
    signAt (sign ++ (digits ++ rest)) = sign := by
  rcases proper with rfl | rfl | rfl
  · obtain ⟨nonempty, all⟩ := any
    cases digits with
    | nil => exact absurd rfl nonempty
    | cons c digits =>
        have digit := all c List.mem_cons_self
        rw [List.nil_append, List.cons_append, signAt]
        · rintro tail ⟨⟩
          cases digit
        · rintro tail ⟨⟩
          cases digit
  · rfl
  · rfl

theorem exponentAt_append {exponent : List Char} (proper : IsExponent exponent)
    (ended : Ended rest) : exponentAt (exponent ++ rest) = exponent := by
  rcases proper with rfl | ⟨mark, sign, digits, marks, signed, ⟨any, all⟩, rfl⟩
  · cases rest with
    | nil => rfl
    | cons c rest =>
        have delimits := isDigit_of_isDelimiter (ended c rfl)
        simp [exponentAt, delimits.2.2.1, delimits.2.2.2]
  · have digitsRead := digitsAt_append all ended.endsDigits
    rw [List.cons_append, List.cons_append, List.append_assoc, exponentAt]
    simp only [signAt_append signed ⟨any, all⟩, List.drop_left, digitsRead]
    rw [if_pos ⟨marks, any⟩]
    rfl

/-! ## Numerals -/

namespace Numeral

/-- A numeral as it may be written. -/
structure Proper (numeral : Numeral) : Prop where
  digits : IsDigits numeral.whole
  /-- A zero stands alone. -/
  leading : numeral.whole.head? = some '0' → numeral.whole = ['0']
  fraction : IsFraction numeral.fraction
  exponent : IsExponent numeral.exponent

/-- A numeral starts with a digit or with a sign. -/
theorem Proper.startsPlain (proper : numeral.Proper) : StartsPlain numeral.spelling := by
  obtain ⟨any, all⟩ := proper.digits
  cases spelled : numeral.whole with
  | nil => exact absurd spelled any
  | cons c whole =>
      have digit := all c (by rw [spelled]; exact List.mem_cons_self)
      cases sign : numeral.negative with
      | true => exact ⟨'-', _, by rw [spelling, sign]; rfl, by decide⟩
      | false =>
          exact ⟨c, _, by rw [spelling, sign, spelled]; rfl, isSpecial_of_isDigit digit⟩

/-- What follows the whole digits of a proper numeral is no digit. -/
theorem Proper.endsDigits (proper : numeral.Proper) (ended : Ended rest) :
    EndsDigits (numeral.fraction ++ (numeral.exponent ++ rest)) ∧
      EndsDigits (numeral.exponent ++ rest) ∧
      (numeral.exponent ++ rest).head? ≠ some '.' := by
  have after : EndsDigits (numeral.exponent ++ rest) ∧
      (numeral.exponent ++ rest).head? ≠ some '.' := by
    rcases proper.exponent with empty | ⟨mark, sign, digits, marks, _, _, spelled⟩
    · rw [empty, List.nil_append]
      refine ⟨ended.endsDigits, ?_⟩
      intro point
      cases ended '.' point
    · rw [spelled]
      rcases marks with rfl | rfl <;> simp [EndsDigits]
  refine ⟨?_, after⟩
  rcases proper.fraction with empty | ⟨digits, _, spelled⟩
  · rw [empty]
    exact after.1
  · rw [spelled]
    simp [EndsDigits]

theorem proper_extended (negative : Bool) {whole : List Char} (digits : IsDigits whole)
    (leading : whole.head? = some '0' → whole = ['0']) (rest : List Char) :
    (extended negative whole rest).Proper :=
  ⟨digits, leading, (fractionAt_spec _).1, (exponentAt_spec _).1⟩

/-- The sign of a numeral as it is written. -/
def signOf (negative : Bool) : List Char :=
  if negative then ['-'] else []

theorem spelling_extended (negative : Bool) (whole rest : List Char) :
    (extended negative whole rest).spelling <+: signOf negative ++ (whole ++ rest) := by
  have fraction := List.prefix_iff_eq_append.mp (fractionAt_spec rest).2
  have exponent := (exponentAt_spec (rest.drop (fractionAt rest).length)).2
  have follows := (List.prefix_append_right_inj (fractionAt rest)).mpr exponent
  rw [fraction] at follows
  change signOf negative ++ whole ++ fractionAt rest ++
    exponentAt (rest.drop (fractionAt rest).length) <+: _
  rw [List.append_assoc, List.append_assoc, List.prefix_append_right_inj,
    List.prefix_append_right_inj]
  exact follows

/-- What is read without its sign is proper, and the text starts with it. -/
theorem unsignedAt?_spec {negative : Bool} (read : unsignedAt? negative text = some numeral) :
    numeral.Proper ∧ numeral.spelling <+: signOf negative ++ text := by
  cases text with
  | nil => cases read
  | cons c rest =>
      simp only [unsignedAt?] at read
      split at read
      · rename_i zero
        cases read
        subst zero
        have digits : IsDigits ['0'] := by simp [IsDigits]
        exact ⟨proper_extended negative digits (fun _ => rfl) rest,
          spelling_extended negative ['0'] rest⟩
      · rename_i nonzero
        split at read
        · rename_i digit
          cases read
          have digits : IsDigits (c :: digitsAt rest) := by
            refine ⟨List.cons_ne_nil _ _, List.forall_mem_cons.mpr ⟨digit, ?_⟩⟩
            exact fun d => isDigit_of_mem_digitsAt
          have leading : (c :: digitsAt rest).head? = some '0' →
              c :: digitsAt rest = ['0'] :=
            fun zero => absurd (Option.some.inj zero) nonzero
          have starts : c :: digitsAt rest <+: c :: rest :=
            (List.prefix_cons_inj c).mpr (digitsAt_starts rest)
          refine ⟨proper_extended negative digits leading _, ?_⟩
          have spelled := spelling_extended negative (c :: digitsAt rest)
            ((c :: rest).drop (c :: digitsAt rest).length)
          rw [List.prefix_iff_eq_append.mp starts] at spelled
          exact spelled
        · cases read

/-- A proper numeral is read again before a rest that ends it. -/
theorem Proper.unsignedAt? (proper : numeral.Proper) (ended : Ended rest) :
    Numeral.unsignedAt? numeral.negative
        (numeral.whole ++ (numeral.fraction ++ (numeral.exponent ++ rest))) = some numeral := by
  obtain ⟨afterWhole, afterFraction, noPoint⟩ := proper.endsDigits ended
  have whole : extended numeral.negative numeral.whole
      (numeral.fraction ++ (numeral.exponent ++ rest)) = numeral := by
    simp only [extended, fractionAt_append proper.fraction afterFraction noPoint,
      List.drop_left, exponentAt_append proper.exponent ended]
  obtain ⟨any, all⟩ := proper.digits
  cases spelled : numeral.whole with
  | nil => exact absurd spelled any
  | cons c digits =>
      rw [spelled] at whole all
      rw [List.forall_mem_cons] at all
      simp only [List.cons_append, Numeral.unsignedAt?]
      split
      · rename_i zero
        have alone := proper.leading (by rw [spelled, zero]; rfl)
        rw [spelled] at alone
        cases alone
        rw [List.nil_append, whole]
      · have taken := digitsAt_append all.2 afterWhole
        rw [if_pos all.1, taken, List.length_cons, List.drop_succ_cons, List.drop_left, whole]

end Numeral

/-- A numeral that is read is proper, and the text starts with it. -/
theorem numeralAt?_spec (read : numeralAt? text = some numeral) :
    numeral.Proper ∧ numeral.spelling <+: text := by
  unfold numeralAt? at read
  split at read
  · exact Numeral.unsignedAt?_spec read
  · exact Numeral.unsignedAt?_spec read

/-- A proper numeral is read whatever comes after it, as long as it is ended. -/
theorem Numeral.Proper.numeralAt? (proper : numeral.Proper) (ended : Ended rest) :
    Json.numeralAt? (numeral.spelling ++ rest) = some numeral := by
  have read := proper.unsignedAt? ended
  cases sign : numeral.negative with
  | true =>
      rw [sign] at read
      simp only [spelling, sign, if_true, List.append_assoc, List.cons_append, List.nil_append,
        Json.numeralAt?, read]
  | false =>
      rw [sign] at read
      simp only [spelling, sign, List.append_assoc]
      obtain ⟨any, all⟩ := proper.digits
      cases spelled : numeral.whole with
      | nil => exact absurd spelled any
      | cons c digits =>
          rw [spelled] at read all
          have digit := all c List.mem_cons_self
          rw [List.cons_append] at read
          rw [if_neg Bool.false_ne_true, List.nil_append, List.cons_append, Json.numeralAt?, read]
          rintro tail ⟨⟩
          cases digit

end LexiconCompiler.Json
