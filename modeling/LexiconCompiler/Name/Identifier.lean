import LexiconCompiler.Name.IdentifierRanges

/-!
# Identifiers

Generated modules declare names, and not every text can be declared: it has to be an
identifier of Python and none of its reserved words.
-/

namespace LexiconCompiler.Name

/-- Whether an identifier may start with a character. -/
def startsIdentifier (c : Char) : Bool :=
  if c.toNat < 0x80 then c.isAlpha || c == '_' else identifierStartRanges.contains c

/-- Whether an identifier may go on with a character. -/
def continuesIdentifier (c : Char) : Bool :=
  if c.toNat < 0x80 then c.isAlphanum || c == '_'
  else identifierStartRanges.contains c || identifierOnlyContinueRanges.contains c

/-- Whether a name has the form of an identifier. -/
def isIdentifier (name : String) : Bool :=
  match name.toList with
  | [] => false
  | c :: rest => startsIdentifier c && rest.all continuesIdentifier

/-- The reserved words, which have the form of an identifier and are none. -/
def reservedWords : List String :=
  ["False", "None", "True", "and", "as", "assert", "async", "await", "break", "class",
   "continue", "def", "del", "elif", "else", "except", "finally", "for", "from",
   "global", "if", "import", "in", "is", "lambda", "nonlocal", "not", "or", "pass",
   "raise", "return", "try", "while", "with", "yield"]

/-- Whether a name can be declared. -/
def isDeclarable (name : String) : Bool :=
  isIdentifier name && !reservedWords.contains name

/-- What may start an identifier may also stand inside it. -/
theorem continuesIdentifier_of_startsIdentifier {c : Char}
    (starts : startsIdentifier c = true) : continuesIdentifier c = true := by
  unfold startsIdentifier at starts
  unfold continuesIdentifier
  split at starts
  · rename_i ascii
    simp only [Bool.or_eq_true] at starts
    rcases starts with letter | underscore
    · simp [ascii, Char.isAlphanum, letter]
    · simp [ascii, underscore]
  · rename_i other
    simp [other, starts]

end LexiconCompiler.Name
