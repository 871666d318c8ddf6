import LexiconCompiler.Encoding
import LexiconCompiler.Text.CodeUnit

/-!
# UTF-16

Bytes are taken in pairs, each a code unit, and the code units are joined to
characters. Only a byte without a partner cannot be decoded.
-/

namespace LexiconCompiler.Encoding.Utf16

/-- The code unit of two bytes. -/
def unitOf (order : ByteOrder) (first second : UInt8) : Nat :=
  match order with
  | .little => first.toNat + 0x100 * second.toNat
  | .big => 0x100 * first.toNat + second.toNat

/-- The code units of bytes, and the bytes that are left over. -/
def unitsOf (order : ByteOrder) : List UInt8 → List Nat × List UInt8
  | first :: second :: rest =>
      let (units, left) := unitsOf order rest
      (unitOf order first second :: units, left)
  | left => ([], left)

/-- The text of bytes in UTF-16, before which `position` bytes come. -/
def decodeFrom (order : ByteOrder) (position : Nat) (bytes : List UInt8) :
    Except Fault (List Char) :=
  match unitsOf order bytes with
  | (units, []) => .ok (Text.ofCodeUnits units)
  | (units, left) => .error ⟨.utf16 order, position + 2 * units.length, left, .truncated⟩

/-- The bytes of a code unit. -/
def encodeUnit (order : ByteOrder) (unit : Nat) : List UInt8 :=
  match order with
  | .little => [UInt8.ofNat (unit % 0x100), UInt8.ofNat (unit / 0x100)]
  | .big => [UInt8.ofNat (unit / 0x100), UInt8.ofNat (unit % 0x100)]

/-- The bytes of a text. -/
def encode (order : ByteOrder) (text : List Char) : List UInt8 :=
  (text.flatMap Text.codeUnits).flatMap (encodeUnit order)

end LexiconCompiler.Encoding.Utf16
