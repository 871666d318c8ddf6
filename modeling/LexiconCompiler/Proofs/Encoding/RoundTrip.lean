import LexiconCompiler.Encoding.Detection

/-!
# Decoding what was encoded

In every encoding the bytes of a text decode to the text. If the text starts with two
characters of ASCII, the encoding is detected from its bytes, with its mark and without.
-/

namespace LexiconCompiler.Encoding

variable {order : ByteOrder} {position : Nat} {text : List Char} {rest : List UInt8}

theorem toNat_ofNat {code : Nat} (small : code < 0x100) : (UInt8.ofNat code).toNat = code :=
  UInt8.toNat_ofNat_of_lt small

/-! ## UTF-8 -/

namespace Utf8

/-- A byte of a sequence that is not its last. -/
theorem decodeFrom_more {sequence : Sequence} {owed bits : Nat} (more : sequence.owed = owed + 1)
    (small : bits < 0x40) (low : sequence.low ≤ 0x80 + bits)
    (high : 0x80 + bits ≤ sequence.high) :
    decodeFrom position (some sequence) (UInt8.ofNat (0x80 + bits) :: rest) =
      decodeFrom position (some ⟨sequence.bytes ++ [UInt8.ofNat (0x80 + bits)], owed,
        0x40 * sequence.value + bits, 0x80, 0xBF⟩) rest := by
  have byte : (UInt8.ofNat (0x80 + bits)).toNat = 0x80 + bits := toNat_ofNat (by omega)
  rw [decodeFrom, byte, if_pos ⟨low, high⟩, Nat.add_sub_cancel_left]
  simp only [more]

/-- The last byte of a sequence completes a character. -/
theorem decodeFrom_last {sequence : Sequence} {bits : Nat} (last : sequence.owed = 0)
    (small : bits < 0x40) (low : sequence.low ≤ 0x80 + bits)
    (high : 0x80 + bits ≤ sequence.high) :
    decodeFrom position (some sequence) (UInt8.ofNat (0x80 + bits) :: rest) =
      withChar (Text.charOf (0x40 * sequence.value + bits))
        (decodeFrom (position + (sequence.bytes.length + 1)) none rest) := by
  have byte : (UInt8.ofNat (0x80 + bits)).toNat = 0x80 + bits := toNat_ofNat (by omega)
  rw [decodeFrom, byte, if_pos ⟨low, high⟩, Nat.add_sub_cancel_left]
  simp only [last, List.length_append, List.length_singleton]

/-- The first byte of a sequence tells how many follow and how they are bounded. -/
theorem decodeFrom_lead {code : Nat} {sequence : Sequence} (small : code < 0x100)
    (lead : 0x80 ≤ code) (begins : sequenceOf? (UInt8.ofNat code) = some sequence) :
    decodeFrom position none (UInt8.ofNat code :: rest) =
      decodeFrom position (some sequence) rest := by
  rw [decodeFrom, toNat_ofNat small, if_neg (by omega), begins]

theorem sequenceOf?_two : ∀ bits < 0x20, 2 ≤ bits →
    sequenceOf? (UInt8.ofNat (0xC0 + bits)) =
      some ⟨[UInt8.ofNat (0xC0 + bits)], 0, bits, 0x80, 0xBF⟩ := by
  decide

theorem sequenceOf?_three : ∀ bits < 0x10,
    sequenceOf? (UInt8.ofNat (0xE0 + bits)) =
      some ⟨[UInt8.ofNat (0xE0 + bits)], 1, bits, if bits = 0 then 0xA0 else 0x80, 0xBF⟩ := by
  decide

theorem sequenceOf?_four : ∀ bits < 5,
    sequenceOf? (UInt8.ofNat (0xF0 + bits)) =
      some ⟨[UInt8.ofNat (0xF0 + bits)], 2, bits, if bits = 0 then 0x90 else 0x80,
        if bits = 4 then 0x8F else 0xBF⟩ := by
  decide

theorem decodeFrom_two {code : Nat} {c : Char} (point : Text.charOf code = c)
    (low : 0x80 ≤ code) (high : code < 0x800) :
    decodeFrom position none
        (UInt8.ofNat (0xC0 + code / 0x40) :: UInt8.ofNat (0x80 + code % 0x40) :: rest) =
      withChar c (decodeFrom (position + 2) none rest) := by
  have whole : 0x40 * (code / 0x40) + code % 0x40 = code := Nat.div_add_mod code 0x40
  rw [decodeFrom_lead (by omega) (by omega) (sequenceOf?_two _ (by omega) (by omega)),
    decodeFrom_last rfl (by omega) (by dsimp only; omega) (by dsimp only; omega), whole, point]
  rfl

theorem decodeFrom_three {code : Nat} {c : Char} (point : Text.charOf code = c)
    (low : 0x800 ≤ code) (high : code < 0x10000) :
    decodeFrom position none
        (UInt8.ofNat (0xE0 + code / 0x1000) :: UInt8.ofNat (0x80 + code / 0x40 % 0x40) ::
          UInt8.ofNat (0x80 + code % 0x40) :: rest) =
      withChar c (decodeFrom (position + 3) none rest) := by
  have whole : 0x40 * (0x40 * (code / 0x1000) + code / 0x40 % 0x40) + code % 0x40 = code := by
    omega
  have least : (if code / 0x1000 = 0 then 0xA0 else 0x80) ≤ 0x80 + code / 0x40 % 0x40 := by
    split <;> omega
  rw [decodeFrom_lead (by omega) (by omega) (sequenceOf?_three _ (by omega)),
    decodeFrom_more rfl (by omega) least (by dsimp only; omega),
    decodeFrom_last rfl (by omega) (by dsimp only; omega) (by dsimp only; omega), whole, point]
  rfl

theorem decodeFrom_four {code : Nat} {c : Char} (point : Text.charOf code = c)
    (low : 0x10000 ≤ code)
    (high : code < 0x110000) :
    decodeFrom position none
        (UInt8.ofNat (0xF0 + code / 0x40000) :: UInt8.ofNat (0x80 + code / 0x1000 % 0x40) ::
          UInt8.ofNat (0x80 + code / 0x40 % 0x40) :: UInt8.ofNat (0x80 + code % 0x40) :: rest) =
      withChar c (decodeFrom (position + 4) none rest) := by
  have whole : 0x40 * (0x40 * (0x40 * (code / 0x40000) + code / 0x1000 % 0x40) +
      code / 0x40 % 0x40) + code % 0x40 = code := by omega
  have least : (if code / 0x40000 = 0 then 0x90 else 0x80) ≤ 0x80 + code / 0x1000 % 0x40 := by
    split <;> omega
  have greatest : 0x80 + code / 0x1000 % 0x40 ≤ if code / 0x40000 = 4 then 0x8F else 0xBF := by
    split <;> omega
  rw [decodeFrom_lead (by omega) (by omega) (sequenceOf?_four _ (by omega)),
    decodeFrom_more rfl (by omega) least greatest,
    decodeFrom_more rfl (by omega) (by dsimp only; omega) (by dsimp only; omega),
    decodeFrom_last rfl (by omega) (by dsimp only; omega) (by dsimp only; omega), whole, point]
  rfl

/-- The bytes of a character decode to it. -/
theorem decodeFrom_encodeChar (c : Char) (position : Nat) (rest : List UInt8) :
    decodeFrom position none (encodeChar c ++ rest) =
      withChar c (decodeFrom (position + (encodeChar c).length) none rest) := by
  rw [encodeChar]
  by_cases one : c.toNat < 0x80
  · rw [if_pos one]
    simp only [List.map_cons, List.map_nil, List.cons_append, List.nil_append]
    rw [decodeFrom, toNat_ofNat (by omega), if_pos one, Text.charOf_toNat]
    rfl
  · rw [if_neg one]
    by_cases two : c.toNat < 0x800
    · rw [if_pos two]
      exact decodeFrom_two (Text.charOf_toNat c) (by omega) two
    · rw [if_neg two]
      by_cases three : c.toNat < 0x10000
      · rw [if_pos three]
        exact decodeFrom_three (Text.charOf_toNat c) (by omega) three
      · rw [if_neg three]
        exact decodeFrom_four (Text.charOf_toNat c) (by omega) (Text.toNat_lt c)

theorem decodeFrom_encode (text : List Char) (position : Nat) :
    decodeFrom position none (encode text) = .ok text := by
  induction text generalizing position with
  | nil => rfl
  | cons c text ih =>
      rw [encode, List.flatMap_cons, decodeFrom_encodeChar, ← encode, ih]
      rfl

end Utf8

/-! ## UTF-16 -/

namespace Utf16

/-- The bytes of code units are taken for those code units. -/
theorem unitsOf_flatMap_encodeUnit (order : ByteOrder) {units : List Nat}
    (basic : ∀ unit ∈ units, unit < 0x10000) :
    unitsOf order (units.flatMap (encodeUnit order)) = (units, []) := by
  induction units with
  | nil => rfl
  | cons unit units ih =>
      have here := basic unit List.mem_cons_self
      have later := ih fun other member => basic other (List.mem_cons_of_mem _ member)
      have low : (UInt8.ofNat (unit % 0x100)).toNat = unit % 0x100 := toNat_ofNat (by omega)
      have high : (UInt8.ofNat (unit / 0x100)).toNat = unit / 0x100 := toNat_ofNat (by omega)
      cases order with
      | little =>
          simp only [List.flatMap_cons, encodeUnit, List.cons_append, List.nil_append, unitsOf,
            unitOf, low, high, later, Prod.mk.injEq, List.cons.injEq, and_true]
          omega
      | big =>
          simp only [List.flatMap_cons, encodeUnit, List.cons_append, List.nil_append, unitsOf,
            unitOf, low, high, later, Prod.mk.injEq, List.cons.injEq, and_true]
          omega

theorem basic_of_mem_codeUnits {unit : Nat} {c : Char} (member : unit ∈ Text.codeUnits c) :
    unit < 0x10000 := by
  rcases Text.codeUnits_cases c with
    ⟨single, basic, _⟩ | ⟨high, low, pair, basicHigh, basicLow, _⟩
  · rw [single, List.mem_singleton] at member
    rw [member]
    exact basic
  · rw [pair, List.mem_cons, List.mem_singleton] at member
    rcases member with rfl | rfl
    · exact basicHigh
    · exact basicLow

theorem decodeFrom_encode (order : ByteOrder) (text : List Char) (position : Nat) :
    decodeFrom order position (encode order text) = .ok text := by
  have basic : ∀ unit ∈ text.flatMap Text.codeUnits, unit < 0x10000 := by
    intro unit member
    obtain ⟨c, _, inside⟩ := List.mem_flatMap.mp member
    exact basic_of_mem_codeUnits inside
  rw [decodeFrom, encode, unitsOf_flatMap_encodeUnit order basic]
  exact congrArg Except.ok (Text.ofCodeUnits_codeUnits text)

end Utf16

/-! ## UTF-32 -/

namespace Utf32

theorem decodeFrom_encodeChar (order : ByteOrder) (c : Char) (position : Nat)
    (rest : List UInt8) :
    decodeFrom order position (encodeChar order c ++ rest) =
      withChar c (decodeFrom order (position + 4) rest) := by
  have bound := Text.toNat_lt c
  have low : (UInt8.ofNat (c.toNat % 0x100)).toNat = c.toNat % 0x100 := toNat_ofNat (by omega)
  have middle : (UInt8.ofNat (c.toNat / 0x100 % 0x100)).toNat = c.toNat / 0x100 % 0x100 :=
    toNat_ofNat (by omega)
  have high : (UInt8.ofNat (c.toNat / 0x10000)).toNat = c.toNat / 0x10000 :=
    toNat_ofNat (by omega)
  have code : c.toNat % 0x100 + 0x100 * (c.toNat / 0x100 % 0x100 +
      0x100 * (c.toNat / 0x10000 + 0x100 * 0)) = c.toNat := by omega
  have zero : (0 : UInt8).toNat = 0 := rfl
  cases order with
  | little =>
      simp only [encodeChar, List.map_cons, List.map_nil, List.cons_append, List.nil_append,
        decodeFrom, codeOf, low, middle, high, zero, code, bound, if_true, Text.charOf_toNat]
  | big =>
      simp only [encodeChar, List.map_cons, List.map_nil, List.cons_append, List.nil_append,
        List.reverse_cons, List.reverse_nil, decodeFrom, codeOf, low, middle, high, zero, code,
        bound, if_true, Text.charOf_toNat]

theorem decodeFrom_encode (order : ByteOrder) (text : List Char) (position : Nat) :
    decodeFrom order position (encode order text) = .ok text := by
  induction text generalizing position with
  | nil => rfl
  | cons c text ih =>
      rw [encode, List.flatMap_cons, decodeFrom_encodeChar, ← encode, ih]
      rfl

end Utf32

/-- In every encoding the bytes of a text decode to it. -/
theorem decodeFrom_encode (encoding : Encoding) (text : List Char) (position : Nat) :
    decodeFrom position encoding (encoding.encode text) = .ok text := by
  cases encoding with
  | utf8 => exact Utf8.decodeFrom_encode text position
  | utf16 order => exact Utf16.decodeFrom_encode order text position
  | utf32 order => exact Utf32.decodeFrom_encode order text position

/-! ## Detection -/

/-- The bytes of a text with a mark in front are decoded if the mark is the first that fits. -/
theorem decode_of_ofMark? {encoding : Encoding}
    (marks : ofMark? (encoding.mark ++ encoding.encode text) = some encoding) :
    decode (encoding.mark ++ encoding.encode text) = .ok text := by
  rw [decode, marks]
  dsimp only
  rw [List.drop_left, decodeFrom_encode]

theorem decode_of_ofZeros {encoding : Encoding} (marks : ofMark? (encoding.encode text) = none)
    (zeros : ofZeros (encoding.encode text) = encoding) :
    decode (encoding.encode text) = .ok text := by
  rw [decode, marks]
  dsimp only
  rw [zeros, decodeFrom_encode]

/-- A byte is that of a character of ASCII, so it is neither zero nor in any mark. -/
def IsPlain (byte : UInt8) : Prop :=
  byte ≠ 0 ∧ byte ≠ 0xEF ∧ byte ≠ 0xFE ∧ byte ≠ 0xFF

/-- A text starts with two characters of ASCII, neither of which is zero. -/
def StartsAscii (text : List Char) : Prop :=
  ∃ first second rest, text = first :: second :: rest ∧
    (0 < first.toNat ∧ first.toNat < 0x80) ∧ 0 < second.toNat ∧ second.toNat < 0x80

theorem isPlain_ofNat {code : Nat} (ascii : 0 < code ∧ code < 0x80) :
    IsPlain (UInt8.ofNat code) := by
  have byte := toNat_ofNat (show code < 0x100 by omega)
  refine ⟨?_, ?_, ?_, ?_⟩ <;>
    · intro same
      rw [same] at byte
      simp at byte
      omega

/-- The bytes of a character of ASCII. -/
def letter (byte : UInt8) : Encoding → List UInt8
  | utf8 => [byte]
  | utf16 .little => [byte, 0]
  | utf16 .big => [0, byte]
  | utf32 .little => [byte, 0, 0, 0]
  | utf32 .big => [0, 0, 0, byte]

theorem encode_cons {c : Char} (ascii : c.toNat < 0x80) (encoding : Encoding) (text : List Char) :
    encoding.encode (c :: text) =
      letter (UInt8.ofNat c.toNat) encoding ++ encoding.encode text := by
  have low : c.toNat % 0x100 = c.toNat := Nat.mod_eq_of_lt (by omega)
  have middle : c.toNat / 0x100 = 0 := Nat.div_eq_of_lt (by omega)
  have high : c.toNat / 0x10000 = 0 := Nat.div_eq_of_lt (by omega)
  have single : Text.codeUnits c = [c.toNat] := if_pos (by omega)
  rcases encoding with _ | order | order
  · simp only [encode, Utf8.encode, List.flatMap_cons, Utf8.encodeChar, if_pos ascii]
    rfl
  · simp only [encode, Utf16.encode, List.flatMap_cons, single, List.cons_append, List.nil_append,
      Utf16.encodeUnit, low, middle]
    cases order <;> rfl
  · simp only [encode, Utf32.encode, List.flatMap_cons, Utf32.encodeChar, low, middle, high]
    cases order <;> rfl

theorem ofMark?_letter {first : UInt8} (plain : IsPlain first) (encoding : Encoding)
    (rest : List UInt8) : ofMark? (letter first encoding ++ rest) = none := by
  obtain ⟨zero, ef, fe, ff⟩ := plain
  rcases encoding with _ | (_ | _) | (_ | _) <;>
    simp [ofMark?, marked, mark, letter, List.isPrefixOf, zero.symm, ef.symm, fe.symm, ff.symm]

theorem ofMark?_mark {first : UInt8} (plain : IsPlain first) (encoding : Encoding)
    (rest : List UInt8) :
    ofMark? (encoding.mark ++ (letter first encoding ++ rest)) = some encoding := by
  obtain ⟨zero, _⟩ := plain
  rcases encoding with _ | (_ | _) | (_ | _) <;>
    simp [ofMark?, marked, mark, letter, List.isPrefixOf, zero.symm]

theorem ofZeros_letter {first second : UInt8} (here : IsPlain first) (next : IsPlain second)
    (encoding : Encoding) (rest : List UInt8) :
    ofZeros (letter first encoding ++ (letter second encoding ++ rest)) = encoding := by
  obtain ⟨zero, _⟩ := here
  obtain ⟨nonzero, _⟩ := next
  rcases encoding with _ | (_ | _) | (_ | _)
  · rcases rest with _ | ⟨third, _ | ⟨fourth, rest⟩⟩ <;>
      simp [letter, ofZeros, zero, nonzero]
  all_goals simp [letter, ofZeros, zero, nonzero]

/-- A text that starts with two characters of ASCII is decoded from its bytes, with a mark and
without. -/
theorem StartsAscii.decode (starts : StartsAscii text) (encoding : Encoding) :
    decode (encoding.encode text) = .ok text ∧
      Encoding.decode (encoding.mark ++ encoding.encode text) = .ok text := by
  obtain ⟨first, second, rest, rfl, here, next⟩ := starts
  have spelled : encoding.encode (first :: second :: rest) =
      letter (UInt8.ofNat first.toNat) encoding ++
        (letter (UInt8.ofNat second.toNat) encoding ++ encoding.encode rest) := by
    rw [encode_cons here.2, encode_cons next.2]
  constructor
  · apply decode_of_ofZeros
    · rw [spelled, ofMark?_letter (isPlain_ofNat here)]
    · rw [spelled, ofZeros_letter (isPlain_ofNat here) (isPlain_ofNat next)]
  · apply decode_of_ofMark?
    rw [spelled, ofMark?_mark (isPlain_ofNat here)]

end LexiconCompiler.Encoding
