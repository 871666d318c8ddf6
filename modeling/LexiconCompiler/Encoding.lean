import LexiconCompiler.Text.Hexadecimal

/-!
# Encodings of text

The encodings in which a document may be stored, the marks that announce them, and
what can be wrong with bytes that are to be decoded.
-/

namespace LexiconCompiler

/-- Which byte of a unit comes first. -/
inductive ByteOrder where
  | little
  | big
  deriving DecidableEq, Repr

/-- An encoding of text. -/
inductive Encoding where
  | utf8
  | utf16 (order : ByteOrder)
  | utf32 (order : ByteOrder)
  deriving DecidableEq, Repr

namespace Encoding

/-- The name of an encoding. -/
def name : Encoding → String
  | utf8 => "utf-8"
  | utf16 .little => "utf-16-le"
  | utf16 .big => "utf-16-be"
  | utf32 .little => "utf-32-le"
  | utf32 .big => "utf-32-be"

/-- The byte order mark of an encoding. -/
def mark : Encoding → List UInt8
  | utf8 => [0xEF, 0xBB, 0xBF]
  | utf16 .little => [0xFF, 0xFE]
  | utf16 .big => [0xFE, 0xFF]
  | utf32 .little => [0xFF, 0xFE, 0, 0]
  | utf32 .big => [0, 0, 0xFE, 0xFF]

/-- Why some bytes are not decoded. -/
inductive Reason where
  | invalidStart
  | invalidContinuation
  | unexpectedEnd
  | truncated
  | outOfRange
  deriving DecidableEq, Repr

namespace Reason

/-- The wording of a reason. -/
def message : Reason → String
  | invalidStart => "invalid start byte"
  | invalidContinuation => "invalid continuation byte"
  | unexpectedEnd => "unexpected end of data"
  | truncated => "truncated data"
  | outOfRange => "code point not in range(0x110000)"

end Reason

/-- Bytes that cannot be decoded. -/
structure Fault where
  /-- The encoding they were taken for. -/
  encoding : Encoding
  /-- The number of bytes before them. -/
  position : Nat
  /-- The bytes themselves. -/
  bytes : List UInt8
  /-- What is wrong with them. -/
  reason : Reason
  deriving DecidableEq, Repr

namespace Fault

/-- The part of a message that names the bytes. -/
def describeBytes (fault : Fault) : String :=
  match fault.bytes with
  | [byte] =>
      "byte 0x" ++ String.ofList (Text.hexDigits 2 byte.toNat) ++ " in position " ++
        toString fault.position
  | bytes =>
      "bytes in position " ++ toString fault.position ++ "-" ++
        toString (fault.position + bytes.length - 1)

/-- The wording of a fault. -/
def message (fault : Fault) : String :=
  "'" ++ fault.encoding.name ++ "' codec can't decode " ++ fault.describeBytes ++ ": " ++
    fault.reason.message

end Fault

/-- Decoded text with one more character in front. -/
def withChar (c : Char) : Except Fault (List Char) → Except Fault (List Char)
  | .ok text => .ok (c :: text)
  | .error fault => .error fault

end Encoding

end LexiconCompiler
