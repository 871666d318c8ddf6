import LexiconCompiler.Json
import LexiconCompiler.Json.Numeral
import LexiconCompiler.Json.Refusal
import LexiconCompiler.Table
import LexiconCompiler.Text.CodeUnit
import LexiconCompiler.Text.Hexadecimal

/-!
# Reading JSON

Each reader takes a text and gives what it read together with the rest, or the first
thing that is wrong. How deep values may be nested is given, and how the values inside a
container are read is handed to the loops over its items or members, so the whole reader
recurses on the depth and the loops on the length of their text.
-/

namespace LexiconCompiler.Json

/-- What was read of a text, and the rest of it. -/
abbrev Parsed (α : Type) := α × List Char

/-- Refuse a text because of what is wrong where `rest` begins. -/
def refuse {α : Type} (complaint : Complaint) (rest : List Char) : Except Refusal α :=
  .error (.misplaced complaint rest)

/-- Whether a character only lays out a text. -/
def isLayout (c : Char) : Bool :=
  c == ' ' || c == '\t' || c == '\n' || c == '\r'

/-- The text from its first character that is not layout on. -/
def skipLayout (text : List Char) : List Char :=
  text.dropWhile isLayout

/-! ## Strings -/

/-- A part of a string as it is written: a character, or a code unit given by its
number. -/
inductive Piece where
  | plain (c : Char)
  | unit (code : Nat)
  deriving DecidableEq, Repr

/-- The character that an escape of one letter stands for. -/
def escapedChar? (letter : Char) : Option Char :=
  match letter with
  | '"' => some '"'
  | '\\' => some '\\'
  | '/' => some '/'
  | 'b' => some '\x08'
  | 'f' => some '\x0c'
  | 'n' => some '\n'
  | 'r' => some '\r'
  | 't' => some '\t'
  | _ => none

/-- Where the reading of a string stands. -/
inductive StringState where
  /-- Between the parts of the string. -/
  | between
  /-- After the backslash at which `place` begins. -/
  | escape (place : List Char)
  /-- Inside the code unit at whose mark `place` begins, with `owed` digits to come
  after `value`. -/
  | codeUnit (place : List Char) (owed value : Nat)
  deriving DecidableEq, Repr

/-- A reading with one more part in front of its string. -/
def withPiece (piece : Piece) :
    Except Refusal (Parsed (List Piece)) → Except Refusal (Parsed (List Piece))
  | .ok (pieces, rest) => .ok (piece :: pieces, rest)
  | .error refusal => .error refusal

/-- The parts of the string whose quote begins at `opening`, up to its other quote. -/
def readPieces (opening : List Char) :
    StringState → List Char → Except Refusal (Parsed (List Piece))
  | .codeUnit place _ _, [] => refuse .invalidUnicodeEscape place
  | _, [] => refuse .unterminatedString opening
  | .between, c :: rest =>
      if c = '"' then .ok ([], rest)
      else if c = '\\' then readPieces opening (.escape (c :: rest)) rest
      else if c.toNat < 0x20 then refuse .controlCharacter (c :: rest)
      else withPiece (.plain c) (readPieces opening .between rest)
  | .escape place, c :: rest =>
      if c = 'u' then readPieces opening (.codeUnit (c :: rest) 4 0) rest
      else match escapedChar? c with
        | some meaning => withPiece (.plain meaning) (readPieces opening .between rest)
        | none => refuse .invalidEscape place
  | .codeUnit place owed value, c :: rest =>
      match Text.hexValue? c with
      | none => refuse .invalidUnicodeEscape place
      | some digit =>
          let value := 16 * value + digit
          if 1 < owed then readPieces opening (.codeUnit place (owed - 1) value) rest
          else if rest.isEmpty then refuse .invalidUnicodeEscape place
          else withPiece (.unit value) (readPieces opening .between rest)

/-- The characters of a string: a high surrogate and a low one right after it are one
character. -/
def joinPieces : List Piece → List Char
  | [] => []
  | .plain c :: rest => c :: joinPieces rest
  | .unit high :: .unit low :: rest =>
      if Text.isHighSurrogate high ∧ Text.isLowSurrogate low then
        Text.pairedChar high low :: joinPieces rest
      else Text.charOf high :: joinPieces (.unit low :: rest)
  | .unit code :: rest => Text.charOf code :: joinPieces rest

/-- Read a string after its first quote, at which `opening` begins. -/
def readString (opening rest : List Char) : Except Refusal (Parsed String) := do
  let (pieces, rest) ← readPieces opening .between rest
  .ok (String.ofList (joinPieces pieces), rest)

/-! ## Words and numbers -/

/-- The words that stand for values. -/
def valueWords : List (String × Json) :=
  [("null", .null), ("true", .bool true), ("false", .bool false), ("NaN", .real "NaN"),
   ("Infinity", .real "Infinity"), ("-Infinity", .real "-Infinity")]

/-- Read a word that stands for a value. -/
def wordAt? (text : List Char) : Option (Parsed Json) :=
  valueWords.findSome? fun (word, value) =>
    if word.toList.isPrefixOf text then some (value, text.drop word.length) else none

/-- The value of a numeral: a whole number, unless it has too many digits, or a real
one. -/
def numeralValue (numeral : Numeral) : Except Refusal Json :=
  if numeral.isWhole then
    if Refusal.digitLimit < numeral.whole.length then
      .error (.integerTooLong numeral.whole.length)
    else .ok (.int numeral.wholeValue)
  else .ok (.real (String.ofList numeral.spelling))

/-- Read a word or a number. -/
def readScalar (text : List Char) : Except Refusal (Parsed Json) :=
  match wordAt? text with
  | some found => .ok found
  | none =>
      match numeralAt? text with
      | none => refuse .expectedValue text
      | some numeral => do
          let value ← numeralValue numeral
          .ok (value, text.drop numeral.spelling.length)

/-! ## Containers -/

/-- Read one or more items up to the closing bracket. Every item but the last takes a
character and a comma, so a budget of the length of the text is never used up before
the text is. -/
def readItems (read : List Char → Except Refusal (Parsed Json)) :
    Nat → List Char → Except Refusal (Parsed (List Json))
  | 0, text => refuse .expectedValue text
  | budget + 1, text => do
      let (item, rest) ← read text
      match skipLayout rest with
      | ']' :: rest => .ok ([item], rest)
      | ',' :: rest =>
          let (items, rest) ← readItems read budget (skipLayout rest)
          .ok (item :: items, rest)
      | rest => refuse .expectedComma rest

/-- Read an array after its opening bracket. -/
def readArray (read : List Char → Except Refusal (Parsed Json)) (text : List Char) :
    Except Refusal (Parsed Json) :=
  match skipLayout text with
  | ']' :: rest => .ok (.arr [], rest)
  | text => do
      let (items, rest) ← readItems read text.length text
      .ok (.arr items, rest)

/-- Read a key, the colon after it and the layout around the colon. -/
def readKey : List Char → Except Refusal (Parsed String)
  | '"' :: rest => do
      let (key, rest) ← readString ('"' :: rest) rest
      match skipLayout rest with
      | ':' :: rest => .ok (key, skipLayout rest)
      | rest => refuse .expectedColon rest
  | text => refuse .expectedKey text

/-- Read one or more members up to the closing brace, with a budget as for items. -/
def readMembers (read : List Char → Except Refusal (Parsed Json)) :
    Nat → List Char → Except Refusal (Parsed (List (String × Json)))
  | 0, text => refuse .expectedKey text
  | budget + 1, text => do
      let (key, rest) ← readKey text
      let (value, rest) ← read rest
      match skipLayout rest with
      | '}' :: rest => .ok ([(key, value)], rest)
      | ',' :: rest =>
          let (members, rest) ← readMembers read budget (skipLayout rest)
          .ok ((key, value) :: members, rest)
      | rest => refuse .expectedComma rest

/-- Read an object after its opening brace. A key that is given again keeps its place
and takes the later value. -/
def readObject (read : List Char → Except Refusal (Parsed Json)) (text : List Char) :
    Except Refusal (Parsed Json) :=
  match skipLayout text with
  | '}' :: rest => .ok (.obj [], rest)
  | text => do
      let (members, rest) ← readMembers read text.length text
      .ok (.obj (Table.ofList members).entries, rest)

/-- Read a value, given how values inside it are read, if it may hold any. -/
def readWith (nested : Option (List Char → Except Refusal (Parsed Json))) :
    List Char → Except Refusal (Parsed Json)
  | '"' :: rest => do
      let (value, rest) ← readString ('"' :: rest) rest
      .ok (.str value, rest)
  | '{' :: rest =>
      match nested with
      | some read => readObject read rest
      | none => .error (.tooDeep .object)
  | '[' :: rest =>
      match nested with
      | some read => readArray read rest
      | none => .error (.tooDeep .array)
  | text => readScalar text

/-- Read a value that is nested at most `depth` deep. -/
def readValue : (depth : Nat) → List Char → Except Refusal (Parsed Json)
  | 0 => readWith none
  | depth + 1 => readWith (some (readValue depth))

/-- The value of a whole text, in which containers are nested at most `depth` deep. -/
def read (depth : Nat) (text : List Char) : Except Refusal Json := do
  let (value, rest) ← readValue depth (skipLayout text)
  match skipLayout rest with
  | [] => .ok value
  | rest => refuse .extraData rest

end LexiconCompiler.Json
