import LexiconCompiler.Build
import LexiconCompiler.CommandLine.Arguments

/-!
# Command line

A run of the program reads its arguments, builds, and says how it ended: with a message
about the arguments, with a log, or with a failure of the files.
-/

namespace LexiconCompiler.CommandLine

/-- How the program is called. -/
def usage : String := "usage: lexgen [-h] [-v] [schema_dir] [output_dir]\n"

/-- What is shown for help. -/
def helpText : String :=
  usage ++ "\n" ++
    "Compile Lexicon schema documents into Python dataclasses.\n" ++ "\n" ++
    "positional arguments:\n" ++
    "  schema_dir     directory containing Lexicon JSON documents\n" ++
    "  output_dir     directory receiving the generated modules\n" ++ "\n" ++
    "options:\n" ++
    "  -h, --help     show this help message and exit\n" ++
    "  -v, --verbose  log every definition\n"

/-- What a stop prints to the standard output. -/
def Stop.output : Stop → String
  | help => helpText
  | refused _ => ""

/-- What a stop prints to the standard error. -/
def Stop.errors : Stop → String
  | help => ""
  | refused complaint => usage ++ "lexgen: error: " ++ complaint.message ++ "\n"

/-- The exit status of a stop. -/
def Stop.status : Stop → Nat
  | help => 0
  | refused _ => 2

/-- How a run ends. -/
inductive Ending where
  /-- The arguments did not lead to a build. -/
  | stopped (stop : Stop)
  /-- The build went through, or a document was rejected. -/
  | finished (status : Nat) (log : String)
  /-- The build failed for a reason that is not an error of a document. -/
  | failed (failure : BuildFailure)
  deriving DecidableEq, Repr

/-- What is logged at the end of a build that went through. -/
def finishedRecord (written : List Path) (outputDirectory : Path) : Log.Record :=
  ⟨.info, .program,
    "Generated " ++ toString written.length ++ " modules in " ++ outputDirectory.text⟩

/-- What is logged for a document that was rejected. -/
def rejectedRecord (error : Error) : Log.Record :=
  ⟨.error, .program, error.report.render⟩

/-- Run the program on a file tree. -/
def run (defaults : Defaults) (arguments : List String) (tree : FileTree) :
    Ending × FileTree :=
  match read defaults tree arguments with
  | .error stop => (.stopped stop, tree)
  | .ok arguments =>
      let schemaDirectory := arguments.schemaDirectory.getD defaults.schemaDirectory
      let outputDirectory := arguments.outputDirectory.getD defaults.outputDirectory
      let outcome := Build.run schemaDirectory outputDirectory tree
      let logged (record : Log.Record) : String :=
        Log.text arguments.verbose (outcome.log ++ [record])
      match outcome.result with
      | .ok written =>
          (.finished 0 (logged (finishedRecord written outputDirectory)), outcome.tree)
      | .error (.rejected error) =>
          (.finished 1 (logged (rejectedRecord error)), outcome.tree)
      | .error failure => (.failed failure, outcome.tree)

end LexiconCompiler.CommandLine
