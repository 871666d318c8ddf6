import LexiconCompiler.Text.Blank

/-!
# Layout

Source text is laid out line by line: no line ends in blank characters, at most two
blank lines stand together, and the text ends with one line feed after its last line
that is not blank.
-/

namespace LexiconCompiler.Source

/-- The most blank lines that stand together. -/
def blankLimit : Nat := 2

/-- Lines without the blank ones that exceed the limit, where `blanks` blank lines come
right before. -/
def limitBlanks : (blanks : Nat) → List (List Char) → List (List Char)
  | _, [] => []
  | blanks, [] :: rest =>
      if blanks < blankLimit then [] :: limitBlanks (blanks + 1) rest
      else limitBlanks (blanks + 1) rest
  | _, line :: rest => line :: limitBlanks 0 rest

/-- Lines without the blank ones at the end. -/
def dropLastBlanks (lines : List (List Char)) : List (List Char) :=
  (lines.reverse.dropWhile List.isEmpty).reverse

/-- The lines of a text as they are laid out. -/
def tidyLines (text : List Char) : List (List Char) :=
  dropLastBlanks (limitBlanks 0 ((text.splitOn '\n').map Text.trimEnd))

/-- A text as it is laid out. -/
def tidyOf (text : List Char) : List Char :=
  ['\n'].intercalate (tidyLines text) ++ ['\n']

/-- A text as it is laid out. -/
def tidy (text : String) : String :=
  String.ofList (tidyOf text.toList)

end LexiconCompiler.Source
