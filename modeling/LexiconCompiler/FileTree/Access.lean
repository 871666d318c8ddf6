import LexiconCompiler.FileTree
import LexiconCompiler.Path

/-!
# Access by path

A path is followed through the directories of a file tree, part by part, to the
location that it leads to. What stands there can be read, written, made or removed.
Paths that the system does not take as texts are refused before anything is looked up.
-/

namespace LexiconCompiler

/-- Why an operation on files fails. -/
inductive FileError where
  | notFound
  | isDirectory
  | notDirectory
  | exists
  /-- A path holds the null character. -/
  | nullByte
  /-- A path, or the content of a file, cannot be encoded. -/
  | unencodable
  /-- Too many directories are missing on the way to one that is to be made. -/
  | tooManyMissing
  deriving DecidableEq, Repr

/-- Whether an error is one that the system reports about its files. The others are raised
before the system is asked. -/
def FileError.fromSystem : FileError → Bool
  | .notFound | .isDirectory | .notDirectory | .exists => true
  | .nullByte | .unencodable | .tooManyMissing => false

namespace Host

/-- Why a host refuses the parts of a path, if it does. They are encoded together before
the null character is looked for. -/
def refusal? (host : Host) (parts : List String) : Option FileError :=
  if !parts.all host.nameCodec.takes then some .unencodable
  else if parts.any holdsNull then some .nullByte
  else none

/-- Why a host refuses the parts of a path that are looked up one by one, if it does. -/
def firstRefusal? (host : Host) (parts : List String) : Option FileError :=
  parts.findSome? fun part => host.refusal? [part]

theorem refusal?_eq_none_iff {host : Host} {parts : List String} :
    host.refusal? parts = none ↔ ∀ part ∈ parts, host.spells part = true := by
  simp only [spells, Bool.and_eq_true, Bool.not_eq_true', forall_and, refusal?]
  split
  · rename_i refused
    simp only [List.all_eq_false] at refused
    obtain ⟨part, member, untaken⟩ := refused
    simp only [reduceCtorEq, false_iff]
    exact fun spelled => untaken (spelled.1 part member)
  · rename_i taken
    split <;> simp_all

theorem refusal?_append {host : Host} {first second : List String} :
    host.refusal? (first ++ second) = none ↔
      host.refusal? first = none ∧ host.refusal? second = none := by
  simp only [refusal?_eq_none_iff, List.forall_mem_append]

end Host

namespace FileTree

/-- One step from a directory: two dots lead to the directory above. -/
def step (here : Location) (part : String) : Location :=
  if part = ".." then here.dropLast else here ++ [part]

/-- Follow parts from a location. Each part is looked up in a directory, and nothing
needs to stand at the end. -/
def walk (tree : FileTree) : Location → List String → Except FileError Location
  | here, [] => .ok here
  | here, part :: rest =>
      match tree.get? here with
      | some .directory => walk tree (step here part) rest
      | some (.file _) => .error .notDirectory
      | none => .error .notFound

/-- The location at which a path starts. -/
def start (tree : FileTree) (path : Path) : Location :=
  if path.anchor = .relative then tree.workingDirectory else []

/-- The location that a path leads to. -/
def locate (tree : FileTree) (path : Path) : Except FileError Location :=
  match tree.host.refusal? path.parts with
  | some error => .error error
  | none => tree.walk (tree.start path) path.parts

/-- The location that the parts of a path spell, whatever stands on the way. -/
def resolve (tree : FileTree) (path : Path) : Location :=
  path.parts.foldl step (tree.start path)

/-- What stands where a path leads, if it leads anywhere. -/
def find? (tree : FileTree) (path : Path) : Option Node :=
  match tree.locate path with
  | .ok location => tree.get? location
  | .error _ => none

/-- Whether a path leads to a directory. -/
def isDirectory (tree : FileTree) (path : Path) : Bool :=
  tree.find? path == some .directory

/-! ## Reading and writing -/

/-- The content of the file that a path leads to. -/
def read (tree : FileTree) (path : Path) : Except FileError (List UInt8) := do
  match tree.get? (← tree.locate path) with
  | some (.file content) => .ok content
  | some .directory => .error .isDirectory
  | none => .error .notFound

/-- A tree with a file at a location, new or in the place of another file. -/
def writeAt (tree : FileTree) (location : Location) (content : List UInt8) :
    Except FileError FileTree :=
  if admits : tree.Admits location (.file content) then
    .ok (tree.put location (.file content) admits)
  else if tree.get? location = some .directory then .error .isDirectory
  else .error .notFound

/-- A tree with a file where a path leads. -/
def write (tree : FileTree) (path : Path) (content : List UInt8) :
    Except FileError FileTree := do
  tree.writeAt (← tree.locate path) content

/-- A tree with a new directory where a path leads. -/
def makeDirectory (tree : FileTree) (path : Path) : Except FileError FileTree := do
  let location ← tree.locate path
  if tree.get? location ≠ none then .error .exists
  else if admits : tree.Admits location .directory then
    .ok (tree.put location .directory admits)
  else .error .notFound

/-- A tree without the file or directory that a path leads to. -/
def remove (tree : FileTree) (path : Path) : Except FileError FileTree := do
  let location ← tree.locate path
  match tree.get? location with
  | some _ => .ok (tree.removeAt location)
  | none => .error .notFound

end FileTree

end LexiconCompiler
