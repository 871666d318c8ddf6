import LexiconCompiler.CommandLine.Flag
import LexiconCompiler.Path
import LexiconCompiler.Text.Ranges
import LexiconCompiler.Text.Quoted

/-!
# Tokens of a command line

Every argument is taken for an option or a positional argument before any of them takes
effect. Long options may be shortened as long as they can be told apart, and two dashes
end the options.
-/

namespace LexiconCompiler.CommandLine

/-- Why arguments are refused. -/
inductive Complaint where
  | ambiguous (argument : String) (candidates : List Flag)
  | ignoredValue (flag : Flag) (value : String)
  | unrecognized (arguments : List String)
  | noSchemaDirectory (path : Path)
  deriving DecidableEq, Repr

/-- The wording of a complaint. -/
def Complaint.message : Complaint → String
  | ambiguous argument candidates =>
      "ambiguous option: " ++ argument ++ " could match " ++
        ", ".intercalate (candidates.map Flag.long)
  | ignoredValue flag value =>
      "argument " ++ flag.display ++ ": ignored explicit argument " ++ Text.quoted value
  | unrecognized arguments => "unrecognized arguments: " ++ " ".intercalate arguments
  | noSchemaDirectory path => "schema directory not found: " ++ path.text

/-- What an argument is taken for. -/
inductive Token where
  | positional (text : String)
  /-- The two dashes that end the options. -/
  | endOfOptions
  /-- A short option with what is written after it. -/
  | shortOption (flag : Flag) (value : Option (List Char))
  /-- A long option with what is written after an equals sign. -/
  | longOption (flag : Flag) (value : Option (List Char))
  | unknownOption (text : String)
  deriving DecidableEq, Repr

/-- Whether a text is a whole number or a decimal fraction without its sign. A line feed
at the end is passed over. -/
def isNumber (text : List Char) : Bool :=
  let text := if text.getLast? = some '\n' then text.dropLast else text
  let isDigits (digits : List Char) : Bool := !digits.isEmpty && digits.all Text.isDecimalDigit
  isDigits text ||
    match text.dropWhile Text.isDecimalDigit with
    | '.' :: fraction => isDigits fraction
    | _ => false

/-- The name and the value of an argument with an equals sign. -/
def splitValue? (argument : List Char) : Option (List Char × List Char) :=
  match argument.dropWhile (· ≠ '=') with
  | '=' :: value => some (argument.takeWhile (· ≠ '='), value)
  | _ => none

/-- What an argument is taken for that starts with a dash and names no option. -/
def leftOver (argument : String) : Token :=
  let isNegative : Bool := isNumber (argument.toList.drop 1)
  if isNegative || argument.toList.contains ' ' then .positional argument
  else .unknownOption argument

/-- What an argument that starts with two dashes is taken for. -/
def longToken (argument : String) : Except Complaint Token :=
  let split := splitValue? argument.toList
  let name := (split.map Prod.fst).getD argument.toList
  let value := split.map Prod.snd
  match Flag.ofLong? name with
  | some flag => .ok (.longOption flag value)
  | none =>
      match Flag.startingWith name with
      | [] => .ok (leftOver argument)
      | [flag] => .ok (.longOption flag value)
      | candidates => .error (.ambiguous argument candidates)

/-- What an argument is taken for that starts with a dash and the letter `letter`. An
equals sign right after the letter of an option is passed over. -/
def shortToken (argument : String) (letter : Char) (rest : List Char) : Token :=
  match Flag.ofShort? letter, rest with
  | none, _ => leftOver argument
  | some flag, [] => .shortOption flag none
  | some flag, '=' :: value => .shortOption flag (some value)
  | some flag, value => .shortOption flag (some value)

/-- What an argument before the end of the options is taken for. -/
def tokenOf (argument : String) : Except Complaint Token :=
  match argument.toList with
  | '-' :: '-' :: [] => .ok .endOfOptions
  | '-' :: '-' :: _ => longToken argument
  | '-' :: letter :: rest => .ok (shortToken argument letter rest)
  | _ => .ok (.positional argument)

/-- What the arguments are taken for. After the end of the options all are positional. -/
def tokens : List String → Except Complaint (List Token)
  | [] => .ok []
  | argument :: rest => do
      let token ← tokenOf argument
      if token = .endOfOptions then
        .ok (token :: rest.map .positional)
      else do
        let others ← tokens rest
        .ok (token :: others)

end LexiconCompiler.CommandLine
