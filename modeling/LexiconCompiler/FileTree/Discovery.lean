import LexiconCompiler.FileTree.Access

/-!
# Finding documents

The documents below a directory are its files whose names have the ending of documents,
at any depth and in a fixed order: locations are compared name by name, by code points.
-/

namespace LexiconCompiler.FileTree

/-- The ending of the names of documents. -/
def documentEnding : String := ".json"

/-- Whether the last name of a location has the ending of documents. -/
def namesDocument (location : Location) : Bool :=
  match location.getLast? with
  | some name => documentEnding.toList.isSuffixOf name.toList
  | none => false

/-- The way from a directory to a document below it, if a node is such a document. -/
def documentBelow? (directory : Location) (entry : Location × Node) : Option Location :=
  match entry.2 with
  | .file _ =>
      if isWithin entry.1 directory && namesDocument entry.1 then
        some (entry.1.drop directory.length)
      else none
  | .directory => none

/-- The documents below a directory, as ways from it. -/
def documentsBelow (tree : FileTree) (directory : Location) : List Location :=
  (tree.nodes.entries.filterMap (documentBelow? directory)).mergeSort
    fun first second => !decide (second < first)

/-- The documents below a root, which has none if it is not a directory. -/
def discover (tree : FileTree) (root : Path) : List Path :=
  match tree.locate root with
  | .error _ => []
  | .ok location =>
      if tree.get? location = some .directory then
        (tree.documentsBelow location).map fun way =>
          { root with parts := root.parts ++ way }
      else []

/-- Documents that stand in their order are found in it. -/
theorem discover_of_pairwise {tree : FileTree} {root : Path} {location : Location}
    {ways : List Location} (leads : tree.locate root = .ok location)
    (stands : tree.get? location = some .directory)
    (found : tree.nodes.entries.filterMap (documentBelow? location) = ways)
    (sorted : ways.Pairwise fun first second => !decide (second < first)) :
    tree.discover root = ways.map fun way => { root with parts := root.parts ++ way } := by
  rw [discover, leads]
  dsimp only
  rw [if_pos stands, documentsBelow, found, List.mergeSort_of_pairwise sorted]

end LexiconCompiler.FileTree
