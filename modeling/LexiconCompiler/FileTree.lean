import LexiconCompiler.Host
import LexiconCompiler.Table

/-!
# File trees

A file tree holds the files and directories that a compilation reads and writes. Every
node is kept under its location, the names on the way from the top to it. The top is
always a directory, and every node lies in a directory of the tree. There are no links,
names and files may be of any length, and a tree may be searched however deep it is.
Relative paths start at a working directory, and the host says which names nodes may have.
-/

namespace LexiconCompiler

/-- The names on the way from the top to a node. -/
abbrev Location := List String

/-- Whether a text, as a part of a path, leads from a directory to a node in it. -/
def isName (name : String) : Bool :=
  name ≠ "" && name ≠ "." && name ≠ ".." && !name.toList.contains '/'

/-- Whether a text can name a node. -/
def Host.canName (host : Host) (name : String) : Bool :=
  isName name && host.spells name

/-- What stands at a location. -/
inductive Node where
  | file (content : List UInt8)
  | directory
  deriving DecidableEq, Repr

/-- What stands at a location, where the top is a directory. -/
def nodeAt (nodes : Table Location Node) (location : Location) : Option Node :=
  if location = [] then some .directory else nodes.get? location

/-- The files and directories of a host, seen from a working directory. -/
structure FileTree where
  host : Host
  nodes : Table Location Node
  /-- Every node has a name, and so have the directories on the way to it. -/
  named : ∀ location ∈ nodes.keys, location ≠ [] ∧ location.all host.canName = true
  /-- Every node lies in a directory. -/
  housed : ∀ location ∈ nodes.keys, nodeAt nodes location.dropLast = some .directory
  /-- The location at which relative paths start. -/
  workingDirectory : Location

namespace FileTree

/-- The tree of a host without nodes, seen from the top. -/
def empty (host : Host) : FileTree where
  host
  nodes := .empty
  named := by simp
  housed := by simp
  workingDirectory := []

instance : Inhabited FileTree := ⟨empty .usual⟩

/-- What stands at a location. -/
def get? (tree : FileTree) (location : Location) : Option Node :=
  nodeAt tree.nodes location

@[simp] theorem get?_nil (tree : FileTree) : tree.get? [] = some .directory := by
  simp [get?, nodeAt]

/-- Whether a node may be put at a location: the location has a name and lies in a
directory, and a directory that stands there stays one. -/
def Admits (tree : FileTree) (location : Location) (node : Node) : Prop :=
  (location ≠ [] ∧ location.all tree.host.canName = true) ∧
    tree.get? location.dropLast = some .directory ∧
    (tree.get? location = some .directory → node = .directory)

instance (tree : FileTree) (location : Location) (node : Node) :
    Decidable (tree.Admits location node) :=
  inferInstanceAs (Decidable ((_ ∧ _) ∧ _ ∧ (_ → _)))

theorem nodeAt_insert (nodes : Table Location Node) (location other : Location)
    (node : Node) (named : location ≠ []) :
    nodeAt (nodes.insert location node) other =
      if other = location then some node else nodeAt nodes other := by
  by_cases top : other = []
  · have different : ¬ [] = location := fun equal => named equal.symm
    simp [nodeAt, top, different]
  · simp [nodeAt, top, Table.get?_insert]

theorem mem_keys_or_eq_of_mem_keys_insert {nodes : Table Location Node}
    {location other : Location} {node : Node}
    (member : other ∈ (nodes.insert location node).keys) :
    other ∈ nodes.keys ∨ other = location := by
  rw [Table.keys_insert] at member
  split at member
  · exact .inl member
  · simpa using member

/-- A tree with a node put at a location that admits it. -/
def put (tree : FileTree) (location : Location) (node : Node)
    (admits : tree.Admits location node) : FileTree where
  host := tree.host
  nodes := tree.nodes.insert location node
  named := by
    intro other member
    rcases mem_keys_or_eq_of_mem_keys_insert member with old | rfl
    · exact tree.named other old
    · exact admits.1
  housed := by
    obtain ⟨⟨named, _⟩, house, keeps⟩ := admits
    intro other member
    have housed : nodeAt tree.nodes other.dropLast = some .directory := by
      rcases mem_keys_or_eq_of_mem_keys_insert member with old | rfl
      · exact tree.housed other old
      · exact house
    rw [nodeAt_insert _ _ _ _ named]
    split
    · rename_i same
      rw [keeps (by rw [← same]; exact housed)]
    · exact housed
  workingDirectory := tree.workingDirectory

/-- Putting a node changes what stands at its location and nothing else. -/
theorem get?_put (tree : FileTree) (location other : Location) (node : Node)
    (admits : tree.Admits location node) :
    (tree.put location node admits).get? other =
      if other = location then some node else tree.get? other :=
  nodeAt_insert tree.nodes location other node admits.1.1

/-- Whether a location is another one or lies below it. -/
def isWithin (location other : Location) : Bool :=
  other.isPrefixOf location

theorem valueIn_filter (entries : List (Location × Node)) (keep : Location → Bool)
    {location : Location} (kept : keep location = true) :
    Table.valueIn location (entries.filter fun entry => keep entry.1) =
      Table.valueIn location entries := by
  induction entries with
  | nil => rfl
  | cons entry rest ih =>
      by_cases here : entry.1 = location
      · simp [Table.valueIn, here, kept]
      · by_cases stays : keep entry.1 = true
        · simp [Table.valueIn, here, stays, ih]
        · simp [Table.valueIn, here, stays, ih]

/-- A tree without a location and everything below it. -/
def removeAt (tree : FileTree) (removed : Location) : FileTree where
  host := tree.host
  nodes := tree.nodes.filter fun entry => !isWithin entry.1 removed
  named := by
    intro other member
    exact tree.named other ((List.filter_sublist.map Prod.fst).subset member)
  housed := by
    intro other member
    simp only [Table.keys, Table.filter, List.mem_map, List.mem_filter] at member
    obtain ⟨entry, ⟨inside, stays⟩, rfl⟩ := member
    have stands := tree.housed entry.1 (List.mem_map.mpr ⟨entry, inside, rfl⟩)
    by_cases top : entry.1.dropLast = []
    · simp [nodeAt, top]
    · have above : (!isWithin entry.1.dropLast removed) = true := by
        simp only [isWithin, Bool.not_eq_true', Bool.eq_false_iff, ne_eq,
          List.isPrefixOf_iff_prefix] at stays ⊢
        exact fun within => stays (within.trans (List.dropLast_prefix entry.1))
      have same := valueIn_filter tree.nodes.entries
        (fun location => !isWithin location removed) above
      simp only [nodeAt, top, if_false, Table.get?, Table.filter] at stands ⊢
      rw [same, stands]
  workingDirectory := tree.workingDirectory

end FileTree

end LexiconCompiler
