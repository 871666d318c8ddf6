import LexiconCompiler.FileTree.Discovery
import LexiconCompiler.Proofs.FileTree.Additions

/-!
# Documents in a file tree

The documents below a directory are the files there whose names have the ending of
documents. Their order is told from their locations alone, so two trees in which the same
locations hold documents list them alike, whatever else is in the trees.
-/

namespace LexiconCompiler.FileTree

variable {tree before after : FileTree} {directory way location : Location} {root path : Path}
  {rewritten : List Location} {new mark : Location → Prop}

/-- A file stands at a location whose last name has the ending of documents. -/
def HasDocument (tree : FileTree) (location : Location) : Prop :=
  namesDocument location = true ∧ ∃ content, tree.get? location = some (.file content)

theorem documentBelow?_eq_some_iff {entry : Location × Node} :
    documentBelow? directory entry = some way ↔
      entry.1 = directory ++ way ∧ namesDocument entry.1 = true ∧
        ∃ content, entry.2 = .file content := by
  obtain ⟨location, node⟩ := entry
  cases node with
  | directory => simp [documentBelow?]
  | file content =>
      simp only [documentBelow?, isWithin, Option.ite_none_right_eq_some, Bool.and_eq_true,
        List.isPrefixOf_iff_prefix, Option.some.injEq, Node.file.injEq, exists_eq', and_true]
      constructor
      · rintro ⟨⟨⟨rest, rfl⟩, ending⟩, same⟩
        rw [List.drop_left] at same
        exact ⟨by rw [same], ending⟩
      · rintro ⟨rfl, ending⟩
        exact ⟨⟨List.prefix_append _ _, ending⟩, List.drop_left⟩

/-- A file is among the entries of a tree. -/
theorem get?_eq_file_iff {content : List UInt8} :
    tree.get? location = some (.file content) ↔
      (location, .file content) ∈ tree.nodes.entries := by
  rw [get?, nodeAt, ← Table.get?_eq_some_iff]
  by_cases top : location = []
  · have absent : tree.nodes.get? [] ≠ some (.file content) := by
      intro stands
      have member : [] ∈ tree.nodes.keys :=
        List.mem_map.mpr ⟨_, Table.get?_eq_some_iff.mp stands, rfl⟩
      exact (tree.named [] member).1 rfl
    simp [top, absent]
  · rw [if_neg top]

/-- The documents below a directory are all those in the tree, by their ways. -/
theorem mem_documentsBelow_iff :
    way ∈ tree.documentsBelow directory ↔ tree.HasDocument (directory ++ way) := by
  rw [documentsBelow, List.mem_mergeSort, List.mem_filterMap, HasDocument]
  constructor
  · rintro ⟨⟨location, node⟩, member, found⟩
    obtain ⟨rfl, ending, content, rfl⟩ := documentBelow?_eq_some_iff.mp found
    exact ⟨ending, content, get?_eq_file_iff.mpr member⟩
  · rintro ⟨ending, content, stands⟩
    exact ⟨_, get?_eq_file_iff.mp stands,
      documentBelow?_eq_some_iff.mpr ⟨rfl, ending, content, rfl⟩⟩

theorem nodup_documentsBelow (tree : FileTree) (directory : Location) :
    (tree.documentsBelow directory).Nodup := by
  rw [documentsBelow, (List.mergeSort_perm _ _).nodup_iff]
  have distinct : tree.nodes.entries.Pairwise fun first second => first.1 ≠ second.1 :=
    List.pairwise_map.mp tree.nodes.distinct
  apply distinct.filterMap
  rintro first second different way here other there rfl
  apply different
  rw [(documentBelow?_eq_some_iff.mp here).1, (documentBelow?_eq_some_iff.mp there).1]

/-- Documents are listed in the order of their locations. -/
theorem pairwise_documentsBelow (tree : FileTree) (directory : Location) :
    (tree.documentsBelow directory).Pairwise fun first second => ¬ second < first := by
  have ordered : ∀ first second : Location,
      (!decide (second < first)) = true ↔ ¬ second < first := by simp
  have transitive : ∀ first second third : Location, (!decide (second < first)) = true →
      (!decide (third < second)) = true → (!decide (third < first)) = true := by
    intro first second third early late
    rw [ordered] at early late ⊢
    exact List.not_lt.mpr (List.le_trans (List.not_lt.mp early) (List.not_lt.mp late))
  have total : ∀ first second : Location,
      (!decide (second < first) || !decide (first < second)) = true := by
    intro first second
    rw [Bool.or_eq_true, ordered, ordered, List.not_lt, List.not_lt]
    exact List.le_total first second
  apply (List.pairwise_mergeSort transitive total _).imp
  intro first second sorted
  exact (ordered first second).mp sorted

/-- The same documents are listed alike. -/
theorem documentsBelow_congr
    (same : ∀ location, after.HasDocument location ↔ before.HasDocument location) :
    after.documentsBelow directory = before.documentsBelow directory := by
  have members : ∀ way, way ∈ after.documentsBelow directory ↔
      way ∈ before.documentsBelow directory := by
    intro way
    rw [mem_documentsBelow_iff, mem_documentsBelow_iff, same]
  have permuted := (List.perm_ext_iff_of_nodup (nodup_documentsBelow after directory)
    (nodup_documentsBelow before directory)).mpr members
  have antisymmetric : ∀ first second : Location,
      ¬ second < first → ¬ first < second → first = second := by
    intro first second early late
    exact List.le_antisymm (List.not_lt.mp early) (List.not_lt.mp late)
  exact permuted.eq_of_pairwise (fun first second _ _ => antisymmetric first second)
    (pairwise_documentsBelow after directory) (pairwise_documentsBelow before directory)

/-! ## Finding documents again -/

/-- A path that is found leads to a document, if it leads anywhere. -/
theorem hasDocument_of_mem_discover (found : path ∈ tree.discover root)
    (leads : tree.locate path = .ok location) : tree.HasDocument location := by
  rw [discover] at found
  split at found
  · cases found
  · rename_i directory rootLeads
    split at found
    · obtain ⟨way, member, rfl⟩ := List.mem_map.mp found
      have document := mem_documentsBelow_iff.mp member
      obtain ⟨content, stands⟩ := document.2
      have entry := get?_eq_file_iff.mp stands
      have names := (tree.named _ (List.mem_map.mpr ⟨_, entry, rfl⟩)).2
      have valid : ∀ name ∈ way, isName name = true := by
        intro name inside
        have named := List.all_eq_true.mp names name (List.mem_append_right _ inside)
        exact (Bool.and_eq_true_iff.mp named).1
      rw [eq_resolve_of_locate leads, resolve_append root valid,
        ← eq_resolve_of_locate rootLeads]
      exact document
    · cases found

namespace Adds

/-- Unless a document is rewritten or a mark is one, additions leave all documents and
make no new ones. -/
theorem get?_eq_file_iff (adds : Adds rewritten new mark before after)
    (spared : ∀ other ∈ rewritten, namesDocument other = false)
    (unmarked : ∀ other, mark other → namesDocument other = false)
    (ending : namesDocument location = true) {content : List UInt8} :
    after.get? location = some (.file content) ↔
      before.get? location = some (.file content) := by
  have kept : location ∉ rewritten := by
    intro member
    rw [spared location member] at ending
    cases ending
  constructor
  · intro stands
    cases stood : before.get? location with
    | none =>
        rcases adds.fresh location _ stood stands with member | ⟨impossible, _⟩ | ⟨_, marked⟩
        · exact absurd member kept
        · cases impossible
        · rw [unmarked location marked] at ending
          cases ending
    | some node =>
        cases node with
        | directory => exact (adds.directories location stood).symm.trans stands
        | file earlier => exact (adds.files location kept earlier stood).symm.trans stands
  · exact adds.files location kept content

theorem hasDocument_iff (adds : Adds rewritten new mark before after)
    (spared : ∀ other ∈ rewritten, namesDocument other = false)
    (unmarked : ∀ other, mark other → namesDocument other = false) (location : Location) :
    after.HasDocument location ↔ before.HasDocument location := by
  simp only [HasDocument]
  constructor
  · rintro ⟨ending, content, stands⟩
    exact ⟨ending, content, (adds.get?_eq_file_iff spared unmarked ending).mp stands⟩
  · rintro ⟨ending, content, stands⟩
    exact ⟨ending, content, (adds.get?_eq_file_iff spared unmarked ending).mpr stands⟩

/-- Additions that make no documents leave what is found, if anything was. -/
theorem discover (adds : Adds rewritten new mark before after)
    (spared : ∀ other ∈ rewritten, namesDocument other = false)
    (unmarked : ∀ other, mark other → namesDocument other = false)
    (any : before.discover root ≠ []) : after.discover root = before.discover root := by
  rw [FileTree.discover] at any
  split at any
  · exact absurd rfl any
  · rename_i directory leads
    split at any
    · rename_i stands
      rw [FileTree.discover, FileTree.discover, adds.locate leads, leads]
      simp only [adds.directories directory stands, stands, if_true]
      rw [documentsBelow_congr (adds.hasDocument_iff spared unmarked)]
    · exact absurd rfl any

/-- A document that is found is read with the same content. -/
theorem read (adds : Adds rewritten new mark before after)
    (spared : ∀ other ∈ rewritten, namesDocument other = false)
    (unmarked : ∀ other, mark other → namesDocument other = false)
    (found : path ∈ before.discover root) {content : List UInt8}
    (opened : before.read path = .ok content) : after.read path = .ok content := by
  rw [FileTree.read, Traversal.bind_eq_ok_iff] at opened
  obtain ⟨location, leads, opened⟩ := opened
  have document := hasDocument_of_mem_discover found leads
  split at opened
  · rename_i earlier stands
    cases opened
    rw [FileTree.read, Traversal.bind_eq_ok_iff]
    refine ⟨location, adds.locate leads, ?_⟩
    rw [(adds.get?_eq_file_iff spared unmarked document.1).mpr stands]
  · cases opened
  · cases opened

end Adds

end LexiconCompiler.FileTree
