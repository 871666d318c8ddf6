import LexiconCompiler.Proofs.FileTree.Growth

/-!
# Additions to file trees

Besides the file that it is meant to write, an action that writes a module adds two kinds
of nodes: directories on the way to the module, and empty files that make directories
packages. Nothing is removed. The locations of new nodes can be told before the action,
from the parts of the paths alone.
-/

namespace LexiconCompiler.FileTree

variable {tree before middle after : FileTree} {root path : Path} {location : Location}

/-! ## Where paths lead -/

/-- A path leads to the location that its parts spell, if it leads anywhere. -/
theorem eq_resolve_of_locate (leads : tree.locate path = .ok location) :
    location = tree.resolve path := by
  have spells : ∀ (parts : List String) (here : Location),
      tree.walk here parts = .ok location → location = parts.foldl step here := by
    intro parts
    induction parts with
    | nil =>
        intro here arrived
        cases arrived
        rfl
    | cons part rest ih =>
        intro here arrived
        rw [walk] at arrived
        split at arrived
        · exact ih (step here part) arrived
        · cases arrived
        · cases arrived
  exact spells path.parts (tree.start path) (locate_eq_ok_iff.mp leads).2

/-- What the parts of a path spell depends on the working directory only. -/
theorem resolve_congr (same : after.workingDirectory = before.workingDirectory)
    (path : Path) : after.resolve path = before.resolve path := by
  simp only [resolve, start, same]

theorem step_of_isName {name : String} (valid : isName name = true) (here : Location) :
    step here name = here ++ [name] := by
  apply if_neg
  rintro rfl
  cases valid

/-- Names at the end of a path are spelled as they are. -/
theorem resolve_append (path : Path) {names : List String}
    (valid : ∀ name ∈ names, isName name = true) :
    tree.resolve { path with parts := path.parts ++ names } = tree.resolve path ++ names := by
  have straight : ∀ here : Location, names.foldl step here = here ++ names := by
    induction names with
    | nil =>
        intro here
        simp
    | cons name names ih =>
        rw [List.forall_mem_cons] at valid
        intro here
        rw [List.foldl_cons, step_of_isName valid.1, ih valid.2, List.append_assoc,
          List.singleton_append]
  rw [resolve, List.foldl_append]
  exact straight _

/-- Packages are the directories between the root and a directory. -/
theorem mem_packages_iff {root directory package : Location} :
    package ∈ packages root directory ↔ root <+: package ∧ package <+: directory := by
  rw [packages]
  constructor
  · intro member
    split at member
    · rename_i within
      have under := List.isPrefixOf_iff_prefix.mp within
      obtain ⟨above, few, rfl⟩ := List.mem_map.mp member
      rw [List.mem_range] at few
      have shorter := under.length_le
      exact ⟨List.prefix_take_iff.mpr ⟨under, by omega⟩, List.take_prefix _ _⟩
    · cases member
  · intro ⟨below, inside⟩
    have within : isWithin directory root = true :=
      List.isPrefixOf_iff_prefix.mpr (below.trans inside)
    rw [if_pos within]
    have shorter := below.length_le
    have longer := inside.length_le
    refine List.mem_map.mpr ⟨directory.length - package.length, ?_, ?_⟩
    · rw [List.mem_range]
      omega
    · rw [Nat.sub_sub_self longer]
      exact (List.prefix_iff_eq_take.mp inside).symm

/-- A location on the way to a path: the path of its first parts leads there. -/
def OnWay (tree : FileTree) (path : Path) (location : Location) : Prop :=
  ∃ count < path.parts.length, location = tree.resolve (path.take count)

/-- A directory that becomes a package when a module is written below a root: it lies
between the root and the directory of the module. -/
def IsPackage (tree : FileTree) (root path : Path) (package : Location) : Prop :=
  tree.resolve root <+: package ∧ package <+: (tree.resolve path).dropLast

/-! ## Trees with additions -/

/-- A later tree has everything that an earlier one has, and what is new in it is a file
that is meant to be written, a directory on a way or an empty file at a mark. -/
structure Adds (rewritten : List Location) (way mark : Location → Prop)
    (before after : FileTree) : Prop extends Grows rewritten before after where
  /-- Nothing is removed. -/
  stays : ∀ location, after.get? location = none → before.get? location = none
  /-- Nothing else is new. -/
  fresh : ∀ location node, before.get? location = none → after.get? location = some node →
    location ∈ rewritten ∨ (node = .directory ∧ way location) ∨
      (node = .file [] ∧ mark location)

variable {rewritten first second : List Location} {way mark : Location → Prop}

namespace Adds

theorem refl (tree : FileTree) : Adds [] way mark tree tree where
  toGrows := .refl tree
  stays := fun _ absent => absent
  fresh := by
    intro location node absent stands
    rw [absent] at stands
    cases stands

theorem trans (early : Adds first way mark before middle)
    (late : Adds second way mark middle after) :
    Adds (first ++ second) way mark before after where
  toGrows := early.toGrows.trans late.toGrows
  stays := fun location absent => early.stays location (late.stays location absent)
  fresh := by
    intro location node absent stands
    rw [List.mem_append, or_assoc]
    by_cases between : middle.get? location = none
    · exact .inr (late.fresh location node between stands)
    · obtain ⟨earlier, stood⟩ := Option.ne_none_iff_exists'.mp between
      apply (early.fresh location earlier absent stood).imp_right
      -- a new node stays as it is, unless it is a file that is written again
      by_cases again : location ∈ second
      · exact fun _ => .inl again
      · intro added
        refine .inr (added.imp ?_ ?_)
        · rintro ⟨rfl, onWay⟩
          rw [late.directories location stood] at stands
          exact ⟨(Option.some.inj stands).symm, onWay⟩
        · rintro ⟨rfl, marked⟩
          rw [late.files location again _ stood] at stands
          exact ⟨(Option.some.inj stands).symm, marked⟩

theorem mono {wider broader : Location → Prop} (adds : Adds rewritten way mark before after)
    (ways : ∀ location, way location → wider location)
    (marks : ∀ location, mark location → broader location) :
    Adds rewritten wider broader before after where
  toGrows := adds.toGrows
  stays := adds.stays
  fresh := by
    intro location node absent stands
    apply (adds.fresh location node absent stands).imp_right
    exact Or.imp (And.imp_right (ways location)) (And.imp_right (marks location))

theorem resolve (adds : Adds rewritten way mark before after) (path : Path) :
    after.resolve path = before.resolve path :=
  resolve_congr adds.workingDirectory path

theorem onWay (adds : Adds rewritten way mark before after) : after.OnWay = before.OnWay := by
  funext path location
  simp only [OnWay, adds.resolve]

theorem isPackage (adds : Adds rewritten way mark before after) :
    after.IsPackage = before.IsPackage := by
  funext root path package
  simp only [IsPackage, adds.resolve]

theorem put {node : Node} {admits : tree.Admits location node}
    (grows : Grows rewritten tree (tree.put location node admits))
    (allowed : location ∈ rewritten ∨ (node = .directory ∧ way location) ∨
      (node = .file [] ∧ mark location)) :
    Adds rewritten way mark tree (tree.put location node admits) where
  toGrows := grows
  stays := by
    intro other absent
    rw [get?_put] at absent
    split at absent
    · cases absent
    · exact absent
  fresh := by
    intro other new absent stands
    rw [get?_put] at stands
    split at stands
    · rename_i same
      cases stands
      rw [same]
      exact allowed
    · rw [absent] at stands
      cases stands

end Adds

/-! ## Single steps -/

theorem adds_of_makeDirectory (onWay : way (tree.resolve path))
    (made : tree.makeDirectory path = .ok after) : Adds [] way mark tree after := by
  rw [makeDirectory, Traversal.bind_eq_ok_iff] at made
  obtain ⟨location, leads, made⟩ := made
  rw [← eq_resolve_of_locate leads] at onWay
  split at made
  · cases made
  · rename_i absent
    split at made
    · cases made
      exact .put (grows_put_of_absent _ (not_not.mp absent)) (.inr (.inl ⟨rfl, onWay⟩))
    · cases made

/-- A file that is written stands at the location that its path spells. -/
theorem adds_of_write {content : List UInt8} (written : tree.write path content = .ok after) :
    Adds [tree.resolve path] way mark tree after ∧
      after.get? (tree.resolve path) = some (.file content) ∧
      after.locate path = .ok (tree.resolve path) := by
  rw [write, Traversal.bind_eq_ok_iff] at written
  obtain ⟨location, leads, written⟩ := written
  obtain ⟨admits, rfl⟩ := writeAt_eq_ok written
  have grows := grows_put_file admits
  rw [← eq_resolve_of_locate leads]
  refine ⟨.put grows (.inl (List.mem_singleton_self _)), ?_, grows.locate leads⟩
  rw [get?_put, if_pos rfl]

/-! ## Actions -/

theorem adds_of_ensureDirectory (onWay : way (tree.resolve path))
    (finished : ensureDirectory path tree = (.ok (), after)) :
    Adds [] way mark tree after := by
  rw [ensureDirectory] at finished
  split at finished
  · rename_i other made
    cases finished
    exact adds_of_makeDirectory onWay made
  · split at finished
    · cases finished
      exact .refl tree
    · cases finished

/-- Directories are made at the locations of the first parts of a path. -/
theorem adds_of_ensureFirst {count missing : Nat}
    (onWay : ∀ few ≤ count, way (tree.resolve (path.take few)))
    (finished : ensureFirst path count missing tree = (.ok (), after)) :
    Adds [] way mark tree after := by
  induction count generalizing missing after with
  | zero => exact adds_of_ensureDirectory (onWay 0 (Nat.le_refl _)) finished
  | succ count ih =>
      have last := onWay (count + 1) (Nat.le_refl _)
      simp only [ensureFirst] at finished
      split at finished
      · split at finished
        · cases finished
        · obtain ⟨middle, above, finished⟩ := Action.andThen_eq_ok finished
          have early := ih (fun few small => onWay few (Nat.le_succ_of_le small)) above
          rw [← early.resolve] at last
          exact early.trans (adds_of_ensureDirectory last finished)
      · exact adds_of_ensureDirectory last finished

/-- An empty file is added where nothing stands, and then something stands there. -/
theorem adds_of_ensureFileAt (marked : mark location)
    (finished : ensureFileAt location tree = (.ok (), after)) :
    Adds [] way mark tree after ∧ after.get? location ≠ none := by
  rw [ensureFileAt] at finished
  split at finished
  · rename_i absent
    obtain ⟨admits, rfl⟩ := writeAt_eq_ok (Action.ofStep_eq_ok finished)
    have grows := grows_put_of_absent admits absent
    refine ⟨.put grows (.inr (.inr ⟨rfl, marked⟩)), ?_⟩
    rw [get?_put, if_pos rfl]
    exact Option.some_ne_none _
  · rename_i stands
    cases finished
    exact ⟨.refl tree, stands⟩

theorem adds_of_ensureFiles {directories : List Location}
    (marked : ∀ directory ∈ directories, mark (directory ++ [packageMark]))
    (finished : Action.inOrder (directories.map fun directory =>
      ensureFileAt (directory ++ [packageMark])) tree = (.ok (), after)) :
    Adds [] way mark tree after ∧
      ∀ directory ∈ directories, after.get? (directory ++ [packageMark]) ≠ none := by
  induction directories generalizing tree with
  | nil =>
      cases finished
      exact ⟨.refl _, by simp⟩
  | cons directory rest ih =>
      rw [List.forall_mem_cons] at marked
      obtain ⟨middle, here, finished⟩ := Action.andThen_eq_ok finished
      obtain ⟨late, others⟩ := ih marked.2 finished
      obtain ⟨early, stands⟩ := adds_of_ensureFileAt marked.1 here
      refine ⟨early.trans late, List.forall_mem_cons.mpr ⟨?_, others⟩⟩
      exact fun absent => stands (late.stays _ absent)

theorem ensurePackages_eq_ok {directory : Path}
    (finished : ensurePackages root directory tree = (.ok (), after)) :
    tree.host.firstRefusal? root.parts = none ∧
      Action.inOrder ((packages (tree.resolve root) (tree.resolve directory)).map
        fun package => ensureFileAt (package ++ [packageMark])) tree = (.ok (), after) := by
  rw [ensurePackages] at finished
  split at finished
  · cases finished
  · rename_i taken
    exact ⟨taken, finished⟩

/-- A path names a file if its last part is a name in the directory before it. -/
def NamesFile (path : Path) : Prop :=
  ∃ name, path.parts = path.parent.parts ++ [name] ∧ isName name = true

theorem resolve_parent (named : NamesFile path) :
    tree.resolve path.parent = (tree.resolve path).dropLast := by
  obtain ⟨name, split, valid⟩ := named
  have whole : tree.resolve path = step (tree.resolve path.parent) name := by
    rw [resolve, split, List.foldl_append]
    rfl
  rw [whole, step_of_isName valid, List.dropLast_concat]

/-- A module that is written stands where its path leads, and the directories between the
root and the module are packages then. -/
theorem adds_of_writeModule {source : String} (named : NamesFile path)
    (onWay : ∀ location, tree.OnWay path location → way location)
    (marked : ∀ package, tree.IsPackage root path package → mark (package ++ [packageMark]))
    (finished : writeModule root path source tree = (.ok (), after)) :
    Adds [tree.resolve path] way mark tree after ∧
      after.get? (tree.resolve path) =
        some (.file (Encoding.Utf8.encode source.toList)) ∧
      after.locate path = .ok (tree.resolve path) ∧
      ∀ package, tree.IsPackage root path package →
        after.get? (package ++ [packageMark]) ≠ none := by
  obtain ⟨housed, made, finished⟩ := Action.andThen_eq_ok finished
  obtain ⟨packaged, complete, finished⟩ := Action.andThen_eq_ok finished
  obtain ⟨last, written, finished⟩ := Action.andThen_eq_ok finished
  cases finished
  have houses : Adds [] way mark tree housed := by
    refine adds_of_ensureFirst ?_ made
    intro few small
    apply onWay
    obtain ⟨name, split, -⟩ := named
    refine ⟨few, ?_, ?_⟩
    · rw [split, List.length_append]
      exact Nat.lt_succ_of_le small
    · simp only [Path.take]
      rw [split, List.take_append_of_le_length small]
      rfl
  have between : ∀ package,
      package ∈ packages (housed.resolve root) (housed.resolve path.parent) ↔
        tree.IsPackage root path package := by
    intro package
    rw [mem_packages_iff, houses.resolve, houses.resolve, resolve_parent named, IsPackage]
  obtain ⟨marks, present⟩ := adds_of_ensureFiles
    (fun package member => marked package ((between package).mp member))
    (ensurePackages_eq_ok complete).2
  have prepared := houses.trans marks
  obtain ⟨writes, stands, leads⟩ := adds_of_write (writeText_eq_ok written).2
  rw [prepared.resolve] at writes stands leads
  refine ⟨prepared.trans writes, stands, leads, ?_⟩
  intro package inside absent
  exact present package ((between package).mpr inside) (writes.stays _ absent)

end LexiconCompiler.FileTree
