/-!
# Code units of sixteen bits

A character above the basic plane is written as two code units, a high and a low
surrogate. A surrogate that stands alone is no character, but texts may hold it. It is kept
as a stand-in, a character for private use. Different surrogates have different stand-ins.
Whether such a character stands for a surrogate or for itself cannot be seen from it: an
encoder tells, which takes the one and refuses the other.
-/

namespace LexiconCompiler.Text

/-- Whether a code unit is the first half of a pair. -/
def isHighSurrogate (unit : Nat) : Bool :=
  decide (0xD800 ≤ unit ∧ unit < 0xDC00)

/-- Whether a code unit is the second half of a pair. -/
def isLowSurrogate (unit : Nat) : Bool :=
  decide (0xDC00 ≤ unit ∧ unit < 0xE000)

/-- The first of the characters that stand for surrogates. -/
def firstStandIn : Nat := 0xE000

/-- Whether a character may stand for a surrogate. -/
def isStandIn (c : Char) : Bool :=
  decide (firstStandIn ≤ c.toNat ∧ c.toNat < firstStandIn + 0x800)

/-- The character with a code point. For a surrogate it is a stand-in. -/
def charOf (code : Nat) : Char :=
  if code.isValidChar then Char.ofNat code else Char.ofNat (firstStandIn + (code - 0xD800))

/-- The character that two surrogates write. -/
def pairedChar (high low : Nat) : Char :=
  charOf (0x10000 + (high - 0xD800) * 0x400 + (low - 0xDC00))

/-- The code units of a character. -/
def codeUnits (c : Char) : List Nat :=
  if c.toNat < 0x10000 then [c.toNat]
  else
    [0xD800 + (c.toNat - 0x10000) / 0x400, 0xDC00 + (c.toNat - 0x10000) % 0x400]

/-- The characters of a sequence of code units. -/
def ofCodeUnits : List Nat → List Char
  | [] => []
  | [unit] => [charOf unit]
  | first :: second :: rest =>
      if isHighSurrogate first ∧ isLowSurrogate second then
        pairedChar first second :: ofCodeUnits rest
      else charOf first :: ofCodeUnits (second :: rest)

@[simp] theorem charOf_toNat (c : Char) : charOf c.toNat = c := by
  have valid : c.toNat.isValidChar := c.valid
  simp [charOf, valid, Char.ofNat_toNat]

/-- A code unit that is a character of its own is no surrogate. -/
theorem not_isHighSurrogate_toNat (c : Char) : isHighSurrogate c.toNat = false := by
  have valid : c.toNat.isValidChar := c.valid
  simp only [isHighSurrogate, decide_eq_false_iff_not]
  rcases valid with low | high <;> omega

theorem toNat_lt (c : Char) : c.toNat < 0x110000 := by
  have valid : c.toNat.isValidChar := c.valid
  rcases valid with low | high <;> omega

/-- A character is one code unit that is no surrogate, or a pair of surrogates. -/
theorem codeUnits_cases (c : Char) :
    (codeUnits c = [c.toNat] ∧ c.toNat < 0x10000 ∧ isHighSurrogate c.toNat = false) ∨
    ∃ high low, codeUnits c = [high, low] ∧ high < 0x10000 ∧ low < 0x10000 ∧
      isHighSurrogate high = true ∧ isLowSurrogate low = true ∧ pairedChar high low = c := by
  by_cases basic : c.toNat < 0x10000
  · exact .inl ⟨if_pos basic, basic, not_isHighSurrogate_toNat c⟩
  · have top := toNat_lt c
    have whole : 0x10000 + (0xD800 + (c.toNat - 0x10000) / 0x400 - 0xD800) * 0x400 +
        (0xDC00 + (c.toNat - 0x10000) % 0x400 - 0xDC00) = c.toNat := by omega
    refine .inr ⟨_, _, if_neg basic, by omega, by omega, ?_, ?_, ?_⟩
    · simp only [isHighSurrogate, decide_eq_true_eq]
      omega
    · simp only [isLowSurrogate, decide_eq_true_eq]
      omega
    · rw [pairedChar, whole, charOf_toNat]

/-- The code units of characters read back as those characters. -/
theorem ofCodeUnits_codeUnits (text : List Char) :
    ofCodeUnits (text.flatMap codeUnits) = text := by
  induction text with
  | nil => rfl
  | cons c rest ih =>
      rw [List.flatMap_cons]
      rcases codeUnits_cases c with
        ⟨single, _, notHigh⟩ | ⟨high, low, pair, _, _, isHigh, isLow, whole⟩
      · rw [single, List.singleton_append]
        cases units : rest.flatMap codeUnits with
        | nil =>
            rw [units] at ih
            rw [ofCodeUnits, charOf_toNat, ← ih, ofCodeUnits]
        | cons unit units =>
            rw [units] at ih
            simp only [ofCodeUnits, notHigh, Bool.false_eq_true, false_and, if_false,
              charOf_toNat, ih]
      · simp only [pair, List.cons_append, List.nil_append, ofCodeUnits, isHigh, isLow, and_self,
          if_true, whole, ih]

end LexiconCompiler.Text
