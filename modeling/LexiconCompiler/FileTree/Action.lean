import LexiconCompiler.Encoding.Utf8
import LexiconCompiler.FileTree.Access

/-!
# Actions on file trees

An action changes a file tree step by step. When a step fails, the action ends with the
failure, and what earlier steps changed stays changed. What an action changed can be told
from the trees before and after it: none of those that are compared removes anything.
-/

namespace LexiconCompiler.FileTree

/-- What an action ends with: whether it failed, and the tree it leaves. -/
abbrev Action (α : Type) := FileTree → Except FileError α × FileTree

namespace Action

/-- The action that changes nothing. -/
def done : Action Unit := fun tree => (.ok (), tree)

/-- The action that fails and changes nothing. -/
def fail (error : FileError) : Action Unit := fun tree => (.error error, tree)

/-- The action of a single step. A step that fails changes nothing. -/
def ofStep (step : FileTree → Except FileError FileTree) : Action Unit := fun tree =>
  match step tree with
  | .ok after => (.ok (), after)
  | .error error => (.error error, tree)

/-- One action after another, unless the first fails. -/
def andThen (first second : Action Unit) : Action Unit := fun tree =>
  match first tree with
  | (.ok (), after) => second after
  | (.error error, after) => (.error error, after)

/-- The actions of a list in order, up to the first that fails. -/
def inOrder : List (Action Unit) → Action Unit
  | [] => done
  | first :: rest => first.andThen (inOrder rest)

end Action

/-- Make one directory, unless one stands there already. -/
def ensureDirectory (path : Path) : Action Unit := fun tree =>
  match tree.makeDirectory path with
  | .ok after => (.ok (), after)
  | .error error => if tree.isDirectory path then (.ok (), tree) else (.error error, tree)

/-- Make the directory of the first parts of a path. The directories above it are made
only if it cannot be found for lack of them, and only so many may be missing. -/
def ensureFirst (path : Path) : (count missing : Nat) → Action Unit
  | 0, _ => ensureDirectory (path.take 0)
  | count + 1, missing => fun tree =>
      match tree.makeDirectory (path.take (count + 1)) with
      | .error .notFound =>
          if missing = 0 then Action.fail .tooManyMissing tree
          else
            (ensureFirst path count (missing - 1)).andThen
              (ensureDirectory (path.take (count + 1))) tree
      | _ => ensureDirectory (path.take (count + 1)) tree

/-- Make a directory and those above it, as far as they do not stand there already. -/
def ensureDirectories (path : Path) : Action Unit := fun tree =>
  ensureFirst path path.parts.length tree.host.missingLimit tree

/-- Write an empty file at a location at which nothing stands. -/
def ensureFileAt (location : Location) : Action Unit := fun tree =>
  if tree.get? location = none then
    Action.ofStep (fun tree => tree.writeAt location []) tree
  else (.ok (), tree)

/-- The name of the file that makes a directory a package. -/
def packageMark : String := "__init__.py"

/-- The directories from a directory up to a root that it lies in. There are none for a
directory outside the root. -/
def packages (root directory : Location) : List Location :=
  if isWithin directory root then
    (List.range (directory.length - root.length + 1)).map fun above =>
      directory.take (directory.length - above)
  else []

/-- Make every directory from the one of a path up to the root a package. The parts of the
root are looked up one by one, and the first that the system refuses ends this. -/
def ensurePackages (root directory : Path) : Action Unit := fun tree =>
  match tree.host.firstRefusal? root.parts with
  | some error => Action.fail error tree
  | none =>
      Action.inOrder ((packages (tree.resolve root) (tree.resolve directory)).map
        fun package => ensureFileAt (package ++ [packageMark])) tree

/-- Write a text into a file. The file is opened before the text is encoded, so it is left
empty if the text cannot be. -/
def writeText (path : Path) (text : String) : Action Unit := fun tree =>
  if tree.host.textCodec.takes text then
    Action.ofStep (·.write path (Encoding.Utf8.encode text.toList)) tree
  else (Action.ofStep (·.write path [])).andThen (Action.fail .unencodable) tree

/-- Write a module below an output root, whose directories become packages. -/
def writeModule (root path : Path) (source : String) : Action Unit :=
  Action.inOrder [
    ensureDirectories path.parent,
    ensurePackages root path.parent,
    writeText path source]

/-- Write a file, making the directories above it. -/
def writeWithParents (path : Path) (content : List UInt8) : Action Unit :=
  (ensureDirectories path.parent).andThen (.ofStep fun tree => tree.write path content)

/-! ## Changes -/

/-- The text of the way to a location. A directory ends in a slash. -/
def displayed (location : Location) (node : Node) : String :=
  "/".intercalate location ++ if node = .directory then "/" else ""

/-- The nodes of a later tree that an earlier one does not have, in the order of the text
of their locations. -/
def changes (before after : FileTree) : List (Location × Node) :=
  (after.nodes.entries.filter fun entry => before.get? entry.1 ≠ some entry.2).mergeSort
    fun first second =>
      !decide (displayed second.1 second.2 < displayed first.1 first.2)

end LexiconCompiler.FileTree
