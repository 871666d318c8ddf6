import LexiconCompiler.CommandLine

/-!
# The program

The files that a run may meet are surveyed into a file tree, the run is carried out on
the tree, and what it changed is written to the files. Only documents are read: every
other file that a run meets is either left alone or replaced.
-/

namespace LexiconCompiler.Program

/-- The path of a location. -/
def pathOf (location : Location) : Path := ⟨.top, location⟩

/-- Add what stands at one location to a tree. -/
def surveyAt (tree : FileTree) (location : Location) : IO FileTree := do
  let place := (← IO.currentDir) / (pathOf location).text
  if ← place.isDir then
    pure (FileTree.ensureDirectories (pathOf location) tree).2
  else if ← place.pathExists then
    let content ←
      if FileTree.namesDocument location then IO.FS.readBinFile place
      else pure ByteArray.empty
    pure (FileTree.writeWithParents (pathOf location) content.toList tree).2
  else pure tree

/-- Add what stands on the way to a location, and at it, to a tree. -/
def surveyWay (tree : FileTree) (location : Location) : IO FileTree :=
  (List.range (location.length + 1)).foldlM
    (fun tree count => surveyAt tree (location.take count)) tree

/-- Add a location and everything below it to a tree. -/
partial def surveyBelow (tree : FileTree) (location : Location) : IO FileTree := do
  let tree ← surveyAt tree location
  let place := (← IO.currentDir) / (pathOf location).text
  if ← place.isDir then
    (← place.readDir).foldlM
      (fun tree entry => surveyBelow tree (location ++ [entry.fileName])) tree
  else pure tree

/-- Write what a run changed. A directory comes before what lies in it. -/
def apply (before after : FileTree) : IO Unit := do
  for (location, node) in before.changes after do
    let place := (← IO.currentDir) / (pathOf location).text
    match node with
    | .directory => IO.FS.createDirAll place
    | .file content => IO.FS.writeBinFile place ⟨content.toArray⟩

/-- What is printed for a failure that is not an error of a document. -/
def failureText : BuildFailure → String
  | .rejected error => error.report.render
  | .integerTooLong digits => Json.Refusal.tooLongMessage digits
  | .file .notFound => "No such file or directory"
  | .file .isDirectory => "Is a directory"
  | .file .notDirectory => "Not a directory"
  | .file .exists => "File exists"
  | .file .nullByte => "embedded null byte"
  | .file .unencodable => "surrogates not allowed"
  | .file .tooManyMissing => "maximum recursion depth exceeded"

/-- Print how a run ended, and give the exit status. -/
def report : CommandLine.Ending → IO UInt32
  | .stopped stop => do
      IO.print stop.output
      IO.eprint stop.errors
      pure (UInt32.ofNat stop.status)
  | .finished status log => do
      IO.eprint log
      pure (UInt32.ofNat status)
  | .failed failure => do
      IO.eprintln (failureText failure)
      pure 1

/-- The directories beside the one that the program is kept in. -/
def defaults : IO CommandLine.Defaults := do
  let home := (Path.ofString (← IO.appDir).toString).parent
  pure {
    schemaDirectory := home.join (.ofString "lexicons")
    outputDirectory := home.join (.ofString "generated") }

/-- Run the program. What a first run on the surveyed documents would change is surveyed
in turn, so that the second run meets every file there is. -/
def run (arguments : List String) : IO UInt32 := do
  let defaults ← defaults
  let here := (Path.ofString (← IO.currentDir).toString).parts
  let mut tree ← surveyWay { FileTree.empty .usual with workingDirectory := here } here
  if let .ok asked := CommandLine.interpret arguments then
    let schemaRoot := tree.resolve (asked.schemaDirectory.getD defaults.schemaDirectory)
    tree ← surveyWay tree schemaRoot
    tree ← surveyBelow tree schemaRoot
  let (_, planned) := CommandLine.run defaults arguments tree
  for (location, _) in tree.changes planned do
    tree ← surveyWay tree location
  let (ending, after) := CommandLine.run defaults arguments tree
  apply tree after
  report ending

end LexiconCompiler.Program

/-- The program: it takes the arguments and gives the exit status. -/
def main (arguments : List String) : IO UInt32 :=
  LexiconCompiler.Program.run arguments
