/-!
# Why a text is not read as JSON

A refusal says what is wrong and, where it is about one place, keeps the text from
that place on. Its message counts lines, columns and characters up to the place.
-/

namespace LexiconCompiler.Json

/-- What is wrong at a place of a text. -/
inductive Complaint where
  | byteOrderMark
  | expectedValue
  | expectedKey
  | expectedColon
  | expectedComma
  | extraData
  | unterminatedString
  | controlCharacter
  | invalidEscape
  | invalidUnicodeEscape
  deriving DecidableEq, Repr

/-- The kinds of value that hold other values. -/
inductive Container where
  | array
  | object
  deriving DecidableEq, Repr

/-- Why a text is not read as JSON. -/
inductive Refusal where
  /-- Something is wrong where `rest` begins. -/
  | misplaced (complaint : Complaint) (rest : List Char)
  /-- A container is opened inside too many others. -/
  | tooDeep (container : Container)
  /-- A whole number has more digits than are read. -/
  | integerTooLong (digits : Nat)
  deriving DecidableEq, Repr

namespace Complaint

/-- The wording of a complaint. -/
def message : Complaint → String
  | byteOrderMark => "Unexpected UTF-8 BOM (decode using utf-8-sig)"
  | expectedValue => "Expecting value"
  | expectedKey => "Expecting property name enclosed in double quotes"
  | expectedColon => "Expecting ':' delimiter"
  | expectedComma => "Expecting ',' delimiter"
  | extraData => "Extra data"
  | unterminatedString => "Unterminated string starting at"
  | controlCharacter => "Invalid control character at"
  | invalidEscape => "Invalid \\escape"
  | invalidUnicodeEscape => "Invalid \\uXXXX escape"

end Complaint

namespace Container

/-- The name of a container in messages. -/
def noun : Container → String
  | array => "array"
  | object => "object"

end Container

/-- A place in a text, as messages give it. -/
structure Place where
  /-- The line, counted from one. -/
  line : Nat
  /-- The column, counted from one. -/
  column : Nat
  /-- The number of characters before the place. -/
  offset : Nat
  deriving DecidableEq, Repr

namespace Place

/-- The place after some text. -/
def after (before : List Char) : Place where
  line := 1 + before.count '\n'
  column := 1 + (before.reverse.takeWhile (· ≠ '\n')).length
  offset := before.length

/-- The place in a text at which a rest of it begins. -/
def ofRest (text rest : List Char) : Place :=
  after (text.take (text.length - rest.length))

/-- The wording of a place. -/
def describe (place : Place) : String :=
  "line " ++ toString place.line ++ " column " ++ toString place.column ++ " (char " ++
    toString place.offset ++ ")"

end Place

namespace Refusal

/-- The greatest number of digits of a whole number that is read. -/
def digitLimit : Nat := 4300

/-- The wording of the refusal of a whole number for its digits. -/
def tooLongMessage (digits : Nat) : String :=
  "Exceeds the limit (" ++ toString digitLimit ++
    " digits) for integer string conversion: value has " ++ toString digits ++
    " digits; use sys.set_int_max_str_digits() to increase the limit"

end Refusal

end LexiconCompiler.Json
