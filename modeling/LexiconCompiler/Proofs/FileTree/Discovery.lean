import LexiconCompiler.Proofs.FileTree.Documents
import LexiconCompiler.Proofs.FileTree.Rewriting
import Mathlib.Data.List.Induction

/-!
# Discovery of documents

A node of a tree lies in directories all the way up, so what stands below a directory is
found by following names from it. The documents that are discovered under a root are
therefore exactly the files that a path from the root leads to by names and whose last name
has the ending of documents. Each is listed once, and the list is ordered by the parts of
the paths.
-/

namespace LexiconCompiler.FileTree

variable {tree : FileTree} {location way : Location} {root path : Path} {node : Node}

/-! ## What stands below a directory -/

theorem mem_keys_of_stands (below : location ≠ []) (stands : tree.get? location = some node) :
    location ∈ tree.nodes.keys := by
  rw [get?, nodeAt, if_neg below] at stands
  exact Table.isSome_get?_iff.mp (by rw [stands]; rfl)

/-- Every proper way to a node leads through directories. -/
theorem get?_of_below (below : way ≠ []) (stands : tree.get? (location ++ way) = some node) :
    tree.get? location = some .directory := by
  induction way using List.reverseRecOn generalizing node with
  | nil => exact absurd rfl below
  | append_singleton folders name ih =>
      have house : tree.get? (location ++ folders) = some .directory := by
        have housed := tree.housed _ (mem_keys_of_stands (by simp) stands)
        rwa [← List.append_assoc, List.dropLast_concat] at housed
      by_cases last : folders = []
      · rwa [last, List.append_nil] at house
      · exact ih last house

theorem canName_of_stands (stands : tree.get? (location ++ way) = some node) :
    ∀ name ∈ way, tree.host.canName name = true := by
  by_cases top : location ++ way = []
  · rw [(List.append_eq_nil_iff.mp top).2]
    exact List.forall_mem_nil _
  · have names := (tree.named _ (mem_keys_of_stands top stands)).2
    intro name member
    exact List.all_eq_true.mp names name (List.mem_append_right _ member)

theorem isName_of_stands (stands : tree.get? (location ++ way) = some node) :
    ∀ name ∈ way, isName name = true :=
  fun name member => (Bool.and_eq_true_iff.mp (canName_of_stands stands name member)).1

/-- The host takes the names of what stands in a tree. -/
theorem refusal?_of_stands (stands : tree.get? (location ++ way) = some node) :
    tree.host.refusal? way = none :=
  Host.refusal?_eq_none_iff.mpr fun name member =>
    (Bool.and_eq_true_iff.mp (canName_of_stands stands name member)).2

/-- A node is reached from a location above it by the names on the way. -/
theorem walk_of_stands (stands : tree.get? (location ++ way) = some node) :
    tree.walk location way = .ok (location ++ way) := by
  induction way generalizing location with
  | nil => rw [List.append_nil, walk]
  | cons name rest ih =>
      have valid := isName_of_stands stands name List.mem_cons_self
      have directory := get?_of_below (List.cons_ne_nil name rest) stands
      rw [List.append_cons] at stands ⊢
      rw [walk, directory]
      dsimp only
      rw [step_of_isName valid]
      exact ih stands

/-- A path that goes on from a root by names leads to what stands below the root. -/
theorem find?_append_iff (valid : ∀ name ∈ way, isName name = true) :
    tree.find? { root with parts := root.parts ++ way } = some node ↔
      ∃ location, tree.locate root = .ok location ∧ tree.get? (location ++ way) = some node := by
  constructor
  · intro found
    rw [find?] at found
    split at found
    · rename_i final leads
      obtain ⟨-, location, rootLeads, -⟩ := locate_append.mp leads
      have spelled := eq_resolve_of_locate leads
      rw [resolve_append root valid, ← eq_resolve_of_locate rootLeads] at spelled
      exact ⟨location, rootLeads, by rw [← spelled]; exact found⟩
    · cases found
  · rintro ⟨location, rootLeads, stands⟩
    have leads : tree.locate { root with parts := root.parts ++ way } = .ok (location ++ way) :=
      locate_append.mpr ⟨refusal?_of_stands stands, location, rootLeads, walk_of_stands stands⟩
    rw [find?, leads]
    exact stands

/-! ## The documents under a root -/

theorem namesDocument_concat (folders : Location) (name : String) :
    namesDocument (folders ++ [name]) = true ↔ documentEnding.toList <:+ name.toList := by
  rw [namesDocument, List.getLast?_concat, List.isSuffixOf_iff_suffix]

/-- What is discovered lies below a root that leads to a directory. -/
theorem mem_discover_iff :
    path ∈ tree.discover root ↔
      ∃ location way, tree.locate root = .ok location ∧
        tree.get? location = some .directory ∧ tree.HasDocument (location ++ way) ∧
        path = { root with parts := root.parts ++ way } := by
  rw [discover]
  split
  · rename_i lost
    simp [lost]
  · rename_i directory leads
    split
    · rename_i stands
      simp [leads, stands, mem_documentsBelow_iff, eq_comm]
    · rename_i stands
      simp [leads, stands]

theorem discover_of_not_isDirectory (other : tree.isDirectory root = false) :
    tree.discover root = [] := by
  rw [discover]
  rw [isDirectory, find?] at other
  split
  · rfl
  · rename_i location leads
    rw [leads] at other
    exact if_neg (beq_eq_false_iff_ne.mp other)

/-- What holds of the ways to documents, in their order, holds of the paths found. -/
theorem pairwise_discover {related : Location → Location → Prop}
    (ordered : ∀ directory, (tree.documentsBelow directory).Pairwise related) :
    (tree.discover root).Pairwise fun earlier later =>
      ∃ first second, earlier = { root with parts := root.parts ++ first } ∧
        later = { root with parts := root.parts ++ second } ∧ related first second := by
  rw [discover]
  split
  · exact .nil
  · split
    · apply List.pairwise_map.mpr
      exact (ordered _).imp fun holds => ⟨_, _, rfl, rfl, holds⟩
    · exact .nil

/-- Documents are listed in the strict order of their ways. -/
theorem strictly_documentsBelow (tree : FileTree) (directory : Location) :
    (tree.documentsBelow directory).Pairwise (· < ·) := by
  apply ((pairwise_documentsBelow tree directory).and (nodup_documentsBelow tree directory)).imp
  rintro first second ⟨early, different⟩
  by_contra late
  exact different (List.le_antisymm (List.not_lt.mp early) (List.not_lt.mp late))

/-- A path goes on from a root by the names of folders and of a file, which stands there and
whose name has the ending of documents. -/
def IsDocumentUnder (tree : FileTree) (root path : Path) : Prop :=
  ∃ folders name, (∀ part ∈ folders ++ [name], isName part = true) ∧
    path = { root with parts := root.parts ++ (folders ++ [name]) } ∧
    (∃ content, tree.find? path = some (.file content)) ∧ ".json".toList <:+ name.toList

theorem mem_discover_iff_isDocumentUnder :
    path ∈ tree.discover root ↔ tree.IsDocumentUnder root path := by
  rw [mem_discover_iff]
  constructor
  · rintro ⟨location, way, leads, directory, ⟨ending, content, stands⟩, rfl⟩
    -- the way is not empty, since the root is no file
    obtain rfl | ⟨folders, name, rfl⟩ := List.eq_nil_or_concat' way
    · rw [List.append_nil, directory] at stands
      cases stands
    · have valid := isName_of_stands stands
      have found := (find?_append_iff valid).mpr ⟨location, leads, stands⟩
      rw [← List.append_assoc] at ending
      exact ⟨folders, name, valid, rfl, ⟨content, found⟩, (namesDocument_concat _ name).mp ending⟩
  · rintro ⟨folders, name, valid, rfl, ⟨content, found⟩, ending⟩
    obtain ⟨location, leads, stands⟩ := (find?_append_iff valid).mp found
    have directory := get?_of_below (by simp) stands
    refine ⟨location, folders ++ [name], leads, directory, ⟨?_, content, stands⟩, rfl⟩
    rw [← List.append_assoc]
    exact (namesDocument_concat _ name).mpr ending

theorem nodup_discover (tree : FileTree) (root : Path) : (tree.discover root).Nodup := by
  apply (pairwise_discover (nodup_documentsBelow tree)).imp
  rintro _ _ ⟨first, second, rfl, rfl, different⟩ same
  exact different (List.append_cancel_left (Path.mk.inj same).2)

/-- Paths are listed in the strict order of their parts, which are compared by code points. -/
theorem strictly_discover (tree : FileTree) (root : Path) :
    (tree.discover root).Pairwise fun earlier later =>
      earlier.anchor = later.anchor ∧ earlier.parts < later.parts := by
  apply (pairwise_discover (strictly_documentsBelow tree)).imp
  rintro _ _ ⟨first, second, rfl, rfl, before⟩
  exact ⟨rfl, List.append_left_lt before⟩

/-- The documents under a root are found: exactly the files at any depth below it whose last
name has the ending of documents, and none if the root is not a directory. Each is listed
once, and the paths are in strict order, compared part by part by code points. -/
theorem discover_finds (tree : FileTree) (root : Path) :
    (∀ path, path ∈ tree.discover root ↔ tree.IsDocumentUnder root path) ∧
      (tree.isDirectory root = true ∨ tree.discover root = []) ∧
      (tree.discover root).Nodup ∧
      (tree.discover root).Pairwise fun earlier later =>
        earlier.anchor = later.anchor ∧ earlier.parts < later.parts := by
  refine ⟨fun path => mem_discover_iff_isDocumentUnder, ?_, nodup_discover tree root,
    strictly_discover tree root⟩
  cases stands : tree.isDirectory root with
  | true => exact .inl rfl
  | false => exact .inr (discover_of_not_isDirectory stands)

/-- The order of paths is not the order of their texts. -/
example : ["a", "b.json"] < ["a-b.json"] ∧ "a-b.json" < "a/b.json" := by decide

end LexiconCompiler.FileTree
