import LexiconCompiler.Encoding
import LexiconCompiler.Text.CodeUnit

/-!
# UTF-8

Bytes are decoded one at a time. Between characters any first byte may come; inside a
sequence the bounds of the next byte are known, and they leave out the forms that are
longer than needed and the numbers above the last character. A sequence of three bytes
for a surrogate is read as the stand-in of the surrogate.
-/

namespace LexiconCompiler.Encoding.Utf8

/-- A sequence of bytes that is not finished. -/
structure Sequence where
  /-- The bytes so far. -/
  bytes : List UInt8
  /-- How many bytes are owed after the next one. -/
  owed : Nat
  /-- The bits gathered so far. -/
  value : Nat
  /-- The least next byte. -/
  low : Nat
  /-- The greatest next byte. -/
  high : Nat
  deriving DecidableEq, Repr

namespace Sequence

/-- Whether two bytes of a sequence begin a surrogate. -/
def beginsSurrogate (sequence : Sequence) : Bool :=
  sequence.bytes.length == 2 && decide (0x360 ≤ sequence.value ∧ sequence.value < 0x380)

/-- The bytes that are valid as the beginning of a character. A surrogate is none, so
only its first byte is. -/
def validBytes (sequence : Sequence) : List UInt8 :=
  if sequence.beginsSurrogate then sequence.bytes.take 1 else sequence.bytes

end Sequence

/-- The sequence that a byte begins: none for a byte that begins none. -/
def sequenceOf? (byte : UInt8) : Option Sequence :=
  let code := byte.toNat
  if 0xC2 ≤ code ∧ code ≤ 0xDF then some ⟨[byte], 0, code - 0xC0, 0x80, 0xBF⟩
  else if code = 0xE0 then some ⟨[byte], 1, 0, 0xA0, 0xBF⟩
  else if 0xE1 ≤ code ∧ code ≤ 0xEF then some ⟨[byte], 1, code - 0xE0, 0x80, 0xBF⟩
  else if code = 0xF0 then some ⟨[byte], 2, 0, 0x90, 0xBF⟩
  else if 0xF1 ≤ code ∧ code ≤ 0xF3 then some ⟨[byte], 2, code - 0xF0, 0x80, 0xBF⟩
  else if code = 0xF4 then some ⟨[byte], 2, 4, 0x80, 0x8F⟩
  else none

/-- Decode bytes of which `position` come before the current character. -/
def decodeFrom (position : Nat) :
    Option Sequence → List UInt8 → Except Fault (List Char)
  | none, [] => .ok []
  | some sequence, [] =>
      if sequence.beginsSurrogate then
        .error ⟨.utf8, position, sequence.validBytes, .invalidContinuation⟩
      else .error ⟨.utf8, position, sequence.bytes, .unexpectedEnd⟩
  | none, byte :: rest =>
      if byte.toNat < 0x80 then
        withChar (Text.charOf byte.toNat) (decodeFrom (position + 1) none rest)
      else match sequenceOf? byte with
        | none => .error ⟨.utf8, position, [byte], .invalidStart⟩
        | some sequence => decodeFrom position (some sequence) rest
  | some sequence, byte :: rest =>
      if sequence.low ≤ byte.toNat ∧ byte.toNat ≤ sequence.high then
        let value := 0x40 * sequence.value + (byte.toNat - 0x80)
        let bytes := sequence.bytes ++ [byte]
        match sequence.owed with
        | 0 =>
            withChar (Text.charOf value) (decodeFrom (position + bytes.length) none rest)
        | owed + 1 => decodeFrom position (some ⟨bytes, owed, value, 0x80, 0xBF⟩) rest
      else .error ⟨.utf8, position, sequence.validBytes, .invalidContinuation⟩

/-- The bytes of a character. -/
def encodeChar (c : Char) : List UInt8 :=
  let code := c.toNat
  let codes :=
    if code < 0x80 then [code]
    else if code < 0x800 then [0xC0 + code / 0x40, 0x80 + code % 0x40]
    else if code < 0x10000 then
      [0xE0 + code / 0x1000, 0x80 + code / 0x40 % 0x40, 0x80 + code % 0x40]
    else
      [0xF0 + code / 0x40000, 0x80 + code / 0x1000 % 0x40, 0x80 + code / 0x40 % 0x40,
       0x80 + code % 0x40]
  codes.map UInt8.ofNat

/-- The bytes of a text. -/
def encode (text : List Char) : List UInt8 :=
  text.flatMap encodeChar

/-- The bytes of a character are those of the library's encoding. -/
theorem encodeChar_eq (c : Char) : encodeChar c = String.utf8EncodeChar c := by
  have bound : c.val.toNat < 0x110000 := by
    have valid := c.valid
    simp only [UInt32.isValidChar, Nat.isValidChar] at valid
    omega
  simp only [encodeChar, String.utf8EncodeChar, Char.toNat]
  generalize c.val.toNat = code at bound
  by_cases one : code < 0x80
  · rw [if_pos one, if_pos (show code ≤ 0x7F by omega)]
    rfl
  · rw [if_neg one, if_neg (show ¬ code ≤ 0x7F by omega)]
    by_cases two : code < 0x800
    · rw [if_pos two, if_pos (show code ≤ 0x7FF by omega),
        Nat.mod_eq_of_lt (show code / 64 < 32 by omega)]
      simp only [List.map_cons, List.map_nil, Nat.add_comm]
    · rw [if_neg two, if_neg (show ¬ code ≤ 0x7FF by omega)]
      by_cases three : code < 0x10000
      · rw [if_pos three, if_pos (show code ≤ 0xFFFF by omega),
          Nat.mod_eq_of_lt (show code / 4096 < 16 by omega)]
        simp only [List.map_cons, List.map_nil, Nat.add_comm]
      · rw [if_neg three, if_neg (show ¬ code ≤ 0xFFFF by omega),
          Nat.mod_eq_of_lt (show code / 262144 < 8 by omega)]
        simp only [List.map_cons, List.map_nil, Nat.add_comm]

/-- Texts with the same bytes are the same. -/
theorem encode_inj {first second : List Char} : encode first = encode second ↔ first = second := by
  constructor
  · intro same
    have spelled : ∀ text, List.utf8Encode text = (encode text).toByteArray := by
      intro text
      simp only [List.utf8Encode, encode, funext encodeChar_eq]
    have decoded : first.utf8Encode.utf8Decode? = second.utf8Encode.utf8Decode? := by
      rw [spelled, spelled, same]
    simpa using decoded
  · exact congrArg encode

end LexiconCompiler.Encoding.Utf8
