import LexiconCompiler.Encoding
import LexiconCompiler.Text.CodeUnit

/-!
# UTF-32

Bytes are taken by fours, each four the code point of a character. A code point above
the last character and bytes without partners cannot be decoded.
-/

namespace LexiconCompiler.Encoding.Utf32

/-- The code point of four bytes. -/
def codeOf (order : ByteOrder) (first second third fourth : UInt8) : Nat :=
  match order with
  | .little =>
      first.toNat + 0x100 * (second.toNat + 0x100 * (third.toNat + 0x100 * fourth.toNat))
  | .big =>
      fourth.toNat + 0x100 * (third.toNat + 0x100 * (second.toNat + 0x100 * first.toNat))

/-- The text of bytes in UTF-32, before which `position` bytes come. -/
def decodeFrom (order : ByteOrder) (position : Nat) :
    List UInt8 → Except Fault (List Char)
  | [] => .ok []
  | first :: second :: third :: fourth :: rest =>
      let code := codeOf order first second third fourth
      if code < 0x110000 then
        withChar (Text.charOf code) (decodeFrom order (position + 4) rest)
      else .error ⟨.utf32 order, position, [first, second, third, fourth], .outOfRange⟩
  | left => .error ⟨.utf32 order, position, left, .truncated⟩

/-- The bytes of a character. -/
def encodeChar (order : ByteOrder) (c : Char) : List UInt8 :=
  let bytes :=
    [c.toNat % 0x100, c.toNat / 0x100 % 0x100, c.toNat / 0x10000].map UInt8.ofNat ++ [0]
  match order with
  | .little => bytes
  | .big => bytes.reverse

/-- The bytes of a text. -/
def encode (order : ByteOrder) (text : List Char) : List UInt8 :=
  text.flatMap (encodeChar order)

end LexiconCompiler.Encoding.Utf32
