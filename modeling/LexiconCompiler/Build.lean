import LexiconCompiler.Document
import LexiconCompiler.FileTree.Action
import LexiconCompiler.FileTree.Discovery
import LexiconCompiler.Log
import LexiconCompiler.Source.Statement

/-!
# Building

A build compiles every document below a schema root. All documents are read before any
is expanded, all are expanded before anything is generated, and everything is generated
before anything is written, so a bad definition leaves the files as they are.
-/

namespace LexiconCompiler

/-- Why a build ends early. -/
inductive BuildFailure where
  | rejected (error : Error)
  /-- A whole number in a document has too many digits to be read. -/
  | integerTooLong (digits : Nat)
  | file (error : FileError)
  deriving DecidableEq, Repr

/-- A failure to read a document, as the end of a build. -/
def ReadFailure.toBuildFailure : ReadFailure → BuildFailure
  | rejected error => .rejected error
  | integerTooLong digits => .integerTooLong digits

namespace FileTree

/-- Read the document that a path leads to. Errors name it by the path. -/
def load (tree : FileTree) (path : Path) : Except BuildFailure Document :=
  match tree.read path with
  | .error error => .error (.file error)
  | .ok content =>
      match Document.parse tree.host.nestingLimit (some path.text) (.bytes content) with
      | .ok document => .ok document
      | .error failure => .error failure.toBuildFailure

end FileTree

namespace Build

/-- A document with its definitions. -/
structure Expanded where
  id : String
  definitions : List Definition
  deriving DecidableEq, Repr

/-- A module that is ready to be written. -/
structure Output where
  path : Path
  source : String
  deriving DecidableEq, Repr

/-- How a build ends: with the paths that were written or a failure, and in any case with
what was logged and the files as they are left. -/
structure Outcome where
  result : Except BuildFailure (List Path)
  log : List Log.Record
  tree : FileTree

/-- Read every document below a root, in order. -/
def readAll (tree : FileTree) (schemaRoot : Path) : Except BuildFailure (List Document) :=
  (tree.discover schemaRoot).mapM tree.load

/-- A document with its definitions. -/
def expandDocument (document : Document) : Except Error Expanded := do
  let definitions ← document.expand
  .ok { id := document.id, definitions }

/-- Whether a step succeeded. -/
def succeeded {α : Type} : Except Error α → Bool
  | .ok _ => true
  | .error _ => false

/-- The entries of documents up to the first that is not decoded, by their ids. -/
def decodedIds (documents : List Document) : List String :=
  let entries := documents.flatMap fun document =>
    document.definitions.entries.map fun entry => (document, entry)
  let decoded := entries.takeWhile fun (document, entry) =>
    succeeded (document.decodeEntry entry)
  decoded.map fun (document, entry) => Name.qualified document.id entry.1

/-- The module of a document, where it is to be written. -/
def generate (outputRoot : Path) (document : Expanded) : Except Error Output := do
  let source ← Module.source document.id document.definitions
  .ok { path := Module.path document.id outputRoot, source }

/-- What is logged for a definition that was decoded. -/
def decodedRecord (id : String) : Log.Record :=
  ⟨.debug, .loader, "Decoded " ++ id⟩

/-- What is logged once all documents are expanded. -/
def loadedRecord (documents : List Expanded) : Log.Record :=
  let count := (documents.flatMap Expanded.definitions).length
  ⟨.info, .generator,
    "Loaded " ++ toString count ++ " lexicons from " ++ toString documents.length ++
      " documents"⟩

/-- What is logged for a module that was written. -/
def generatedRecord (path : Path) : Log.Record :=
  ⟨.info, .generator, "Generated " ++ path.text⟩

/-- Write modules one after another, up to the first that cannot be written. -/
def writeAll (outputRoot : Path) : List Output → FileTree → Outcome
  | [], tree => ⟨.ok [], [], tree⟩
  | output :: rest, tree =>
      match FileTree.writeModule outputRoot output.path output.source tree with
      | (.error error, after) => ⟨.error (.file error), [], after⟩
      | (.ok (), after) =>
          let later := writeAll outputRoot rest after
          { result := later.result.map (output.path :: ·)
            log := generatedRecord output.path :: later.log
            tree := later.tree }

/-- Everything up to the writing: the expanded documents with their modules. -/
def prepare (outputRoot : Path) (documents : List Document) :
    List Log.Record × Except Error (List Output) :=
  let decoded := (decodedIds documents).map decodedRecord
  match documents.mapM expandDocument with
  | .error error => (decoded, .error error)
  | .ok expanded =>
      (decoded ++ [loadedRecord expanded], expanded.mapM (generate outputRoot))

/-- Compile every document below the schema root into the output root. -/
def run (schemaRoot outputRoot : Path) (tree : FileTree) : Outcome :=
  match readAll tree schemaRoot with
  | .error failure => ⟨.error failure, [], tree⟩
  | .ok documents =>
      match prepare outputRoot documents with
      | (log, .error error) => ⟨.error (.rejected error), log, tree⟩
      | (log, .ok outputs) =>
          let written := writeAll outputRoot outputs tree
          { written with log := log ++ written.log }

end Build

end LexiconCompiler
