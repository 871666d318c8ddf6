/-!
# Log

What a compilation reports while it runs, as records that are written one to a line.
-/

namespace LexiconCompiler.Log

/-- How much a record matters. -/
inductive Level where
  | debug
  | info
  | error
  deriving DecidableEq, Repr

/-- The part of the program that a record comes from. -/
inductive Channel where
  | program
  | loader
  | generator
  deriving DecidableEq, Repr

/-- The name of a level. -/
def Level.name : Level → String
  | debug => "DEBUG"
  | info => "INFO"
  | error => "ERROR"

/-- The name of a channel. -/
def Channel.name : Channel → String
  | program => "lexgen"
  | loader => "lexgen.loader"
  | generator => "lexgen.codegen"

/-- One report. -/
structure Record where
  level : Level
  channel : Channel
  message : String
  deriving DecidableEq, Repr

/-- The line of a record. -/
def Record.line (record : Record) : String :=
  record.level.name ++ " " ++ record.channel.name ++ ": " ++ record.message ++ "\n"

/-- The records that are shown: those that only help to look for faults are shown on
demand. -/
def shown (verbose : Bool) (records : List Record) : List Record :=
  records.filter fun record => verbose || record.level ≠ .debug

/-- The text of the records that are shown. -/
def text (verbose : Bool) (records : List Record) : String :=
  String.join ((shown verbose records).map Record.line)

end LexiconCompiler.Log
