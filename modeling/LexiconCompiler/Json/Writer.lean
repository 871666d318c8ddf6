import LexiconCompiler.Json
import LexiconCompiler.Text.CodeUnit
import LexiconCompiler.Text.Hexadecimal

/-!
# Writing JSON

Values are written on one line in ASCII, with a blank after every comma and colon. A
character without a short escape is written by its code units, unless it is one of the
printable characters of ASCII.
-/

namespace LexiconCompiler.Json

/-- A character as it stands in a string. -/
def writtenChar (c : Char) : List Char :=
  if c = '"' then ['\\', '"']
  else if c = '\\' then ['\\', '\\']
  else if c = '\n' then ['\\', 'n']
  else if c = '\r' then ['\\', 'r']
  else if c = '\t' then ['\\', 't']
  else if c = '\x08' then ['\\', 'b']
  else if c = '\x0c' then ['\\', 'f']
  else if ' ' ≤ c ∧ c ≤ '~' then [c]
  else (Text.codeUnits c).flatMap fun unit => '\\' :: 'u' :: Text.hexDigits 4 unit

/-- A string with its quotes. -/
def writeString (text : List Char) : List Char :=
  '"' :: text.flatMap writtenChar ++ ['"']

/-- A whole number. -/
def writeInt : Int → List Char
  | .ofNat size => Nat.toDigits 10 size
  | .negSucc size => '-' :: Nat.toDigits 10 (size + 1)

mutual

/-- A value. -/
def write : Json → List Char
  | .null => "null".toList
  | .bool true => "true".toList
  | .bool false => "false".toList
  | .int value => writeInt value
  | .real spelling => spelling.toList
  | .str value => writeString value.toList
  | .arr items => '[' :: [',', ' '].intercalate (writeItems items) ++ [']']
  | .obj members => '\x7b' :: [',', ' '].intercalate (writeMembers members) ++ ['\x7d']

/-- The items of an array, each written. -/
def writeItems : List Json → List (List Char)
  | [] => []
  | item :: rest => write item :: writeItems rest

/-- The members of an object, each written. -/
def writeMembers : List (String × Json) → List (List Char)
  | [] => []
  | (key, value) :: rest =>
      (writeString key.toList ++ ':' :: ' ' :: write value) :: writeMembers rest

end

end LexiconCompiler.Json
