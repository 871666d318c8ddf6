import LexiconCompiler.CommandLine.Token
import LexiconCompiler.FileTree.Access

/-!
# Arguments of the program

The program takes two directories, both of which may be left out, and its options. The
options take effect in order, so help ends the reading where it stands.
-/

namespace LexiconCompiler.CommandLine

/-! ## Options -/

/-- The options that a short option asks for together with the letters after it. -/
def chained (flag : Flag) : Option (List Char) → Except Complaint (List Flag)
  | none => .ok [flag]
  | some [] => .error (.ignoredValue flag "")
  | some (letter :: rest) =>
      match Flag.ofShort? letter with
      | none => .error (.ignoredValue flag (String.ofList (letter :: rest)))
      | some next => do
          let others ← match rest with
            | [] => .ok [next]
            | letter :: rest => chained next (some (letter :: rest))
          .ok (flag :: others)

/-- The options that a token asks for. -/
def flagsOf : Token → Except Complaint (List Flag)
  | .shortOption flag value => chained flag value
  | .longOption flag none => .ok [flag]
  | .longOption flag (some value) => .error (.ignoredValue flag (String.ofList value))
  | _ => .ok []

/-- Why the arguments do not lead to a run. -/
inductive Stop where
  | help
  | refused (complaint : Complaint)
  deriving DecidableEq, Repr

/-- Whether the options of tokens ask for a verbose log. Help and a refused option end
the reading where they stand. -/
def readFlags : List Token → Except Stop Bool
  | [] => .ok false
  | token :: rest =>
      match flagsOf token with
      | .error complaint => .error (.refused complaint)
      | .ok flags =>
          if .help ∈ flags then .error .help
          else do
            let verbose ← readFlags rest
            .ok (verbose || flags.contains .verbose)

/-! ## Directories -/

/-- Whether a token stands among positional arguments. -/
def Token.isPositional : Token → Bool
  | .positional _ => true
  | .endOfOptions => true
  | _ => false

/-- The tokens after the end of the options, if it comes first. -/
def passEnd : List Token → List Token
  | .endOfOptions :: rest => rest
  | tokens => tokens

/-- Take one directory from the start of tokens: perhaps the end of the options before
it or after it, and one positional argument, if one is there. Two dashes that stand for
themselves are no directory. -/
def takeDirectory (tokens : List Token) : Option String × List Token :=
  match tokens with
  | .endOfOptions :: .positional text :: rest => (some text, rest)
  | .positional text :: rest =>
      (if text = "--" then none else some text, passEnd rest)
  | tokens => (none, passEnd tokens)

/-- The arguments that are left over. -/
def leftOvers (tokens : List Token) : List String :=
  tokens.filterMap fun
    | .positional text => some text
    | .unknownOption text => some text
    | .endOfOptions => some "--"
    | _ => none

/-- What the arguments ask for. A directory that they leave out is the default one. -/
structure Arguments where
  schemaDirectory : Option Path
  outputDirectory : Option Path
  verbose : Bool
  deriving DecidableEq, Repr

/-- Read the arguments. Both directories are taken from the first place at which a
positional argument stands, so a directory after a later option is left over. -/
def interpret (arguments : List String) : Except Stop Arguments :=
  match tokens arguments with
  | .error complaint => .error (.refused complaint)
  | .ok tokens => do
      let before := tokens.takeWhile (!·.isPositional)
      let (schema, rest) := takeDirectory (tokens.dropWhile (!·.isPositional))
      let (output, rest) := takeDirectory rest
      let verbose ← readFlags (before ++ rest)
      match leftOvers (before ++ rest) with
      | [] => .ok {
          schemaDirectory := schema.map .ofString
          outputDirectory := output.map .ofString
          verbose }
      | unrecognized => .error (.refused (.unrecognized unrecognized))

/-- The directories used where the arguments name none. -/
structure Defaults where
  schemaDirectory : Path
  outputDirectory : Path
  deriving DecidableEq, Repr

/-- Read the arguments and check that there is a schema directory. -/
def read (defaults : Defaults) (tree : FileTree) (arguments : List String) :
    Except Stop Arguments := do
  let arguments ← interpret arguments
  let schemaDirectory := arguments.schemaDirectory.getD defaults.schemaDirectory
  if tree.isDirectory schemaDirectory then .ok arguments
  else .error (.refused (.noSchemaDirectory schemaDirectory))

end LexiconCompiler.CommandLine
