import LexiconCompiler.Text.Blank
import LexiconCompiler.Text.Lines

/-!
# Descriptions

A description becomes a comment that goes on over as many lines as the description has, or
the docstring of a class. For a docstring it is trimmed, and backslashes, three quotes in a
row and a quote at the very end are escaped.
-/

namespace LexiconCompiler.Source

/-! ## Comments -/

/-- What begins every further line of a comment. -/
def commentBreak : List Char := ['\n', '#', ' ']

/-- What stands after the first mark of a comment. -/
def commentOf (text : List Char) : List Char :=
  commentBreak.intercalate ((Text.brokenLines (Text.trim text)).map Text.trimEnd)

/-- The comment of a description, without its first mark. -/
def comment (text : String) : String :=
  String.ofList (commentOf text.toList)

/-! ## Docstrings -/

/-- A text with every backslash doubled. -/
def escapeBackslashes (text : List Char) : List Char :=
  text.flatMap fun c => if c = '\\' then ['\\', '\\'] else [c]

/-- A text with every three quotes in a row escaped, from left to right. -/
def escapeTripleQuotes : List Char → List Char
  | [] => []
  | '"' :: '"' :: '"' :: rest =>
      '\\' :: '"' :: '\\' :: '"' :: '\\' :: '"' :: escapeTripleQuotes rest
  | c :: rest => c :: escapeTripleQuotes rest

/-- A text with a backslash before the quote that ends it. -/
def escapeLastQuote (text : List Char) : List Char :=
  if text.getLast? = some '"' then text.dropLast ++ ['\\', '"'] else text

/-- What stands between the quotes of a docstring. -/
def docstringOf (text : List Char) : List Char :=
  escapeLastQuote (escapeTripleQuotes (escapeBackslashes (Text.trim text)))

/-- The docstring of a description, without its quotes. -/
def docstring (text : String) : String :=
  String.ofList (docstringOf text.toList)

end LexiconCompiler.Source
