import LexiconCompiler.Proofs.FileTree.Confinement
import LexiconCompiler.Proofs.Module.Path
import LexiconCompiler.Proofs.Text.Parts

/-!
# Modules below the root

The segments of an id hold no dots, so no part of a module's path leads up. A segment may
hold slashes, though, and one that starts with a slash is a path of its own, which replaces
everything before it. The module for an id lies below every root iff no such segment stands
before the last.
-/

namespace LexiconCompiler

/-- A path lies below a root if it goes on from the root by names of files and directories,
of which neither a dot nor two dots is one. -/
def Path.IsBelow (root path : Path) : Prop :=
  path.anchor = root.anchor ∧ ∃ names, path.parts = root.parts ++ names ∧ names ≠ [] ∧
    ∀ name ∈ names, isName name = true

/-- The path of the directory from which paths are seen. -/
def Path.current : Path := ⟨.relative, []⟩

/-- A path below a root spells a location below that of the root. -/
theorem Path.IsBelow.resolve {root path : Path} (below : IsBelow root path) (tree : FileTree) :
    FileTree.IsBelow (tree.resolve root) (tree.resolve path) := by
  obtain ⟨anchor, parts⟩ := path
  obtain ⟨rfl, names, rfl, any, valid⟩ := below
  rw [FileTree.resolve_append root valid]
  exact FileTree.isBelow_append (List.prefix_refl _) any

theorem Path.anchor_ofString_eq_relative_iff {text : String} :
    (ofString text).anchor = .relative ↔ text.toList.head? ≠ some '/' := by
  simp only [ofString, anchorOf]
  cases text.toList with
  | nil => simp
  | cons c rest =>
      by_cases slash : c = '/'
      · subst slash
        simp only [List.head?_cons, ne_eq, not_true, iff_false]
        rw [List.takeWhile_cons_of_pos (by simp), List.length_cons]
        split <;> simp_all
      · rw [List.takeWhile_cons_of_neg (by simpa using slash)]
        simp [slash]

namespace Module

variable {id : String} {root : Path}

/-- No segment of an id but the last starts with a slash. -/
def IsRelative (id : String) : Prop :=
  ∀ segment ∈ (Name.segments id).dropLast, segment.toList.head? ≠ some '/'

instance (id : String) : Decidable (IsRelative id) :=
  inferInstanceAs (Decidable (∀ segment ∈ (Name.segments id).dropLast, _))

/-- A segment of an id holds no dot, so its parts are names. -/
theorem isName_of_mem_parts {segment part : String} (member : segment ∈ Name.segments id)
    (inside : part ∈ (Path.ofString segment).parts) : isName part = true := by
  obtain ⟨letters, split, rfl⟩ := List.mem_map.mp member
  obtain ⟨cut, kept⟩ := List.mem_filter.mp inside
  obtain ⟨piece, among, rfl⟩ := List.mem_map.mp cut
  rw [String.toList_ofList] at among
  have noSlash : '/' ∉ piece := fun slash => (mem_of_mem_splitOn among slash).2 rfl
  have noDot : '.' ∉ piece := fun dot =>
    (mem_of_mem_splitOn split (mem_of_mem_splitOn among dot).1).2 rfl
  have notUp : String.ofList piece ≠ ".." := by
    intro up
    have dots := congrArg String.toList up
    rw [String.toList_ofList] at dots
    exact noDot (by rw [dots]; decide)
  simp only [Path.isPart, Bool.and_eq_true, decide_eq_true_eq] at kept
  simp [isName, kept.1, kept.2, notUp, noSlash]

theorem directory_of_isRelative (relative : IsRelative id) (root : Path) :
    directory id root = ⟨root.anchor, root.parts ++
      (Name.segments id).dropLast.flatMap fun segment => (Path.ofString segment).parts⟩ :=
  foldl_join_of_relative
    (fun segment member => Path.anchor_ofString_eq_relative_iff.mpr (relative segment member)) root

/-- The module for a relative id lies below every root. -/
theorem isBelow_path_of_isRelative (relative : IsRelative id) (root : Path) :
    Path.IsBelow root (path id root) := by
  rw [path_eq, directory_of_isRelative relative]
  refine ⟨rfl, _, List.append_assoc _ _ _, by simp, ?_⟩
  intro name member
  rw [List.mem_append, List.mem_flatMap, List.mem_singleton] at member
  rcases member with ⟨segment, early, inside⟩ | rfl
  · exact isName_of_mem_parts ((List.dropLast_sublist _).subset early) inside
  · exact isName_fileName _

/-- An anchored path replaces everything before it. -/
theorem foldl_join_of_anchored {names : List String}
    (anchored : ∃ name ∈ names, (Path.ofString name).anchor ≠ .relative) (here other : Path) :
    names.foldl (fun path name => path.join (.ofString name)) here =
      names.foldl (fun path name => path.join (.ofString name)) other := by
  induction names generalizing here other with
  | nil => simp at anchored
  | cons name names ih =>
      rw [List.foldl_cons, List.foldl_cons]
      by_cases later : ∃ name ∈ names, (Path.ofString name).anchor ≠ .relative
      · exact ih later _ _
      · have first : (Path.ofString name).anchor ≠ .relative := by
          rw [List.exists_mem_cons_iff] at anchored
          exact anchored.resolve_right later
        rw [Path.join, if_neg first, Path.join, if_neg first]

/-- The module for an id that is not relative lies at one place, whatever the root. -/
theorem path_of_not_isRelative (anchored : ¬ IsRelative id) (root other : Path) :
    path id root = path id other := by
  have some : ∃ name ∈ (Name.segments id).dropLast, (Path.ofString name).anchor ≠ .relative := by
    simp only [IsRelative, not_forall] at anchored
    obtain ⟨segment, member, slash⟩ := anchored
    exact ⟨segment, member, fun relative =>
      slash (Path.anchor_ofString_eq_relative_iff.mp relative)⟩
  rw [path_eq, path_eq, directory, directory, foldl_join_of_anchored some root other]

/-- The module for an id lies below a root iff the id is relative, or the path that the id
spells by itself lies below the root already. -/
theorem isBelow_path_iff : Path.IsBelow root (path id root) ↔
    IsRelative id ∨ Path.IsBelow root (path id .current) := by
  by_cases relative : IsRelative id
  · exact iff_of_true (isBelow_path_of_isRelative relative root) (.inl relative)
  · rw [path_of_not_isRelative relative root .current, or_iff_right relative]

end Module

end LexiconCompiler
