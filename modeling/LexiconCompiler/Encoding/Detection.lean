import LexiconCompiler.Encoding.Utf8
import LexiconCompiler.Encoding.Utf16
import LexiconCompiler.Encoding.Utf32

/-!
# Detecting an encoding

A byte order mark tells the encoding of a document. Without one, the places of zero
bytes among the first four tell it, because a JSON text starts with two ASCII
characters.
-/

namespace LexiconCompiler.Encoding

/-- The encodings whose marks are looked for, the longer of two marks first. -/
def marked : List Encoding :=
  [utf32 .big, utf32 .little, utf16 .big, utf16 .little, utf8]

/-- The encoding whose mark bytes start with. -/
def ofMark? (bytes : List UInt8) : Option Encoding :=
  marked.find? fun encoding => encoding.mark.isPrefixOf bytes

/-- The encoding of bytes without a mark. -/
def ofZeros : List UInt8 → Encoding
  | [first, second] =>
      if first = 0 then utf16 .big else if second = 0 then utf16 .little else utf8
  | first :: second :: third :: fourth :: _ =>
      if first = 0 then
        if second = 0 then utf32 .big else utf16 .big
      else if second = 0 then
        if third = 0 ∧ fourth = 0 then utf32 .little else utf16 .little
      else utf8
  | _ => utf8

/-- The text of bytes in a given encoding, before which `position` bytes come. -/
def decodeFrom (position : Nat) : Encoding → List UInt8 → Except Fault (List Char)
  | utf8, bytes => Utf8.decodeFrom position none bytes
  | utf16 order, bytes => Utf16.decodeFrom order position bytes
  | utf32 order, bytes => Utf32.decodeFrom order position bytes

/-- The bytes of a text in a given encoding, without a mark. -/
def encode : Encoding → List Char → List UInt8
  | utf8, text => Utf8.encode text
  | utf16 order, text => Utf16.encode order text
  | utf32 order, text => Utf32.encode order text

/-- Where the positions in messages start: the mark of UTF-8 is not counted, the
others are. -/
def countedMark : Encoding → Nat
  | utf8 => 0
  | encoding => encoding.mark.length

/-- The text of bytes in the encoding they show, without their mark. -/
def decode (bytes : List UInt8) : Except Fault (List Char) :=
  match ofMark? bytes with
  | some encoding =>
      decodeFrom encoding.countedMark encoding (bytes.drop encoding.mark.length)
  | none => decodeFrom 0 (ofZeros bytes) bytes

end LexiconCompiler.Encoding
