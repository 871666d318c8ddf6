/-!
# Paths

A path is an anchor and a list of parts. Empty parts and single dots are dropped when a
path is read, and two dots are kept, since what they stand for depends on the files.
-/

namespace LexiconCompiler

/-- Where a path starts. Two leading slashes are kept apart from one. -/
inductive Anchor where
  | relative
  | top
  | doubleTop
  deriving DecidableEq, Repr

/-- The text of an anchor. -/
def Anchor.text : Anchor → String
  | relative => ""
  | top => "/"
  | doubleTop => "//"

/-- A path. -/
structure Path where
  anchor : Anchor
  parts : List String
  deriving DecidableEq, Repr

namespace Path

/-- The anchor of a text, from the number of slashes that it starts with. -/
def anchorOf (text : List Char) : Anchor :=
  match (text.takeWhile (· = '/')).length with
  | 0 => .relative
  | 2 => .doubleTop
  | _ => .top

/-- Whether a piece of a text is a part of the path. -/
def isPart (part : String) : Bool :=
  part ≠ "" && part ≠ "."

/-- The path that a text names. -/
def ofString (text : String) : Path where
  anchor := anchorOf text.toList
  parts := ((text.toList.splitOn '/').map String.ofList).filter isPart

/-- The text of a path. -/
def text (path : Path) : String :=
  if path = ⟨.relative, []⟩ then "." else path.anchor.text ++ "/".intercalate path.parts

/-- A path seen from a directory. A path with an anchor of its own stands alone. -/
def join (directory path : Path) : Path :=
  if path.anchor = .relative then ⟨directory.anchor, directory.parts ++ path.parts⟩
  else path

/-- The path of the directory that a path lies in, as far as its parts tell. -/
def parent (path : Path) : Path :=
  { path with parts := path.parts.dropLast }

/-- The path of the first parts of a path. -/
def take (path : Path) (count : Nat) : Path :=
  { path with parts := path.parts.take count }

end Path

end LexiconCompiler
