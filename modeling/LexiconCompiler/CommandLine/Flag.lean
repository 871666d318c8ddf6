/-!
# Options

The options of the program. Each has a short name of one letter and a long one.
-/

namespace LexiconCompiler.CommandLine

/-- What an option asks for. -/
inductive Flag where
  | help
  | verbose
  deriving DecidableEq, Repr

namespace Flag

/-- The short name of an option. -/
def short : Flag → Char
  | help => 'h'
  | verbose => 'v'

/-- The long name of an option. -/
def long : Flag → String
  | help => "--help"
  | verbose => "--verbose"

/-- An option as messages name it. -/
def display (flag : Flag) : String :=
  "-" ++ flag.short.toString ++ "/" ++ flag.long

/-- All options. -/
def all : List Flag := [help, verbose]

/-- The option with a short name. -/
def ofShort? (c : Char) : Option Flag :=
  all.find? fun flag => flag.short = c

/-- The option with a long name. -/
def ofLong? (name : List Char) : Option Flag :=
  all.find? fun flag => flag.long.toList = name

/-- The options whose long names start with a text. -/
def startingWith (name : List Char) : List Flag :=
  all.filter fun flag => name.isPrefixOf flag.long.toList

end Flag

end LexiconCompiler.CommandLine
