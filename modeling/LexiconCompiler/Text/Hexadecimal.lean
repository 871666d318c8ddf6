/-!
# Hexadecimal numbers

Numbers written with a fixed count of hexadecimal digits, and the value of a digit.
Digits are written in lower case and read in either case.
-/

namespace LexiconCompiler.Text

/-- The last `width` hexadecimal digits of a number. -/
def hexDigits : (width : Nat) → Nat → List Char
  | 0, _ => []
  | width + 1, number => hexDigits width (number / 16) ++ [Nat.digitChar (number % 16)]

/-- The value of a hexadecimal digit. -/
def hexValue? (c : Char) : Option Nat :=
  if '0' ≤ c ∧ c ≤ '9' then some (c.toNat - '0'.toNat)
  else if 'a' ≤ c ∧ c ≤ 'f' then some (c.toNat - 'a'.toNat + 10)
  else if 'A' ≤ c ∧ c ≤ 'F' then some (c.toNat - 'A'.toNat + 10)
  else none

@[simp] theorem length_hexDigits (width number : Nat) :
    (hexDigits width number).length = width := by
  induction width generalizing number with
  | zero => rfl
  | succ width ih => simp [hexDigits, ih]

/-- A written digit reads back as its value. -/
theorem hexValue?_digitChar {digit : Nat} (small : digit < 16) :
    hexValue? (Nat.digitChar digit) = some digit := by
  have table : ∀ digit < 16, hexValue? (Nat.digitChar digit) = some digit := by decide
  exact table digit small

/-- A number below sixteen to the fourth is that of its four digits. -/
theorem exists_hexDigits_four {number : Nat} (small : number < 0x10000) :
    ∃ first second third fourth a b c d, hexDigits 4 number = [first, second, third, fourth] ∧
      hexValue? first = some a ∧ hexValue? second = some b ∧ hexValue? third = some c ∧
      hexValue? fourth = some d ∧ 16 * (16 * (16 * (16 * 0 + a) + b) + c) + d = number := by
  have digit : ∀ number, hexValue? (Nat.digitChar (number % 16)) = some (number % 16) :=
    fun number => hexValue?_digitChar (Nat.mod_lt number (by decide))
  have whole : 16 * (16 * (16 * (16 * 0 + number / 16 / 16 / 16 % 16) + number / 16 / 16 % 16) +
      number / 16 % 16) + number % 16 = number := by omega
  exact ⟨_, _, _, _, _, _, _, _, rfl, digit (number / 16 / 16 / 16), digit (number / 16 / 16),
    digit (number / 16), digit number, whole⟩

end LexiconCompiler.Text
