import LexiconCompiler.Proofs.FileTree.Additions

/-!
# Confinement of writes

A module that is written below a root changes no file anywhere else, whether or not the
action succeeds. Outside the root at most directories are made, on the way to it.
-/

namespace LexiconCompiler.FileTree

variable {tree before middle after : FileTree} {root path : Path}
  {directory location : Location} {content : List UInt8}

/-- A location lies below a directory. -/
def IsBelow (directory location : Location) : Prop :=
  directory <+: location ∧ location ≠ directory

/-- Two trees have the same files everywhere but below a directory. -/
structure Confined (directory : Location) (before after : FileTree) : Prop where
  workingDirectory : after.workingDirectory = before.workingDirectory
  files : ∀ location, ¬ IsBelow directory location → ∀ content,
    after.get? location = some (.file content) ↔ before.get? location = some (.file content)

theorem isBelow_append (within : directory <+: location) {names : List String}
    (any : names ≠ []) : IsBelow directory (location ++ names) := by
  refine ⟨within.trans (List.prefix_append location names), ?_⟩
  intro same
  have longer := within.length_le
  have more := List.length_pos_iff.mpr any
  have lengths := congrArg List.length same
  rw [List.length_append] at lengths
  omega

namespace Confined

theorem refl (tree : FileTree) : Confined directory tree tree where
  workingDirectory := rfl
  files := fun _ _ _ => Iff.rfl

theorem trans (early : Confined directory before middle)
    (late : Confined directory middle after) : Confined directory before after where
  workingDirectory := late.workingDirectory.trans early.workingDirectory
  files := fun location outside content =>
    (late.files location outside content).trans (early.files location outside content)

theorem resolve (confined : Confined directory before after) (path : Path) :
    after.resolve path = before.resolve path :=
  resolve_congr confined.workingDirectory path

theorem put_directory {admits : tree.Admits location .directory}
    (absent : tree.get? location = none) :
    Confined directory tree (tree.put location .directory admits) where
  workingDirectory := rfl
  files := by
    intro other _ content
    rw [get?_put]
    split
    · rename_i same
      rw [same, absent]
      constructor <;> intro stands <;> cases stands
    · exact Iff.rfl

theorem put_file {admits : tree.Admits location (.file content)}
    (below : IsBelow directory location) :
    Confined directory tree (tree.put location (.file content) admits) where
  workingDirectory := rfl
  files := by
    intro other outside _
    have different : other ≠ location := by
      rintro rfl
      exact outside below
    rw [get?_put, if_neg different]

/-- An action after another one is confined if it is wherever the first may lead. -/
theorem andThen {first second : Action Unit} (early : Confined directory tree (first tree).2)
    (late : ∀ middle, Confined directory tree middle →
      Confined directory middle (second middle).2) :
    Confined directory tree (first.andThen second tree).2 := by
  rw [Action.andThen]
  cases done : first tree with
  | mk result after =>
      rw [done] at early
      cases result with
      | error error => exact early
      | ok finished => exact early.trans (late after early)

theorem ofStep {step : FileTree → Except FileError FileTree}
    (confined : ∀ after, step tree = .ok after → Confined directory tree after) :
    Confined directory tree (Action.ofStep step tree).2 := by
  rw [Action.ofStep]
  split
  · rename_i after done
    exact confined after done
  · exact refl tree

end Confined

/-! ## Single steps -/

theorem confined_of_makeDirectory (made : tree.makeDirectory path = .ok after) :
    Confined directory tree after := by
  rw [makeDirectory, Traversal.bind_eq_ok_iff] at made
  obtain ⟨location, _, made⟩ := made
  split at made
  · cases made
  · rename_i absent
    split at made
    · cases made
      exact .put_directory (not_not.mp absent)
    · cases made

theorem confined_of_writeAt (below : IsBelow directory location)
    (written : tree.writeAt location content = .ok after) : Confined directory tree after := by
  obtain ⟨admits, rfl⟩ := writeAt_eq_ok written
  exact .put_file below

theorem confined_of_write (below : IsBelow directory (tree.resolve path))
    (written : tree.write path content = .ok after) : Confined directory tree after := by
  rw [write, Traversal.bind_eq_ok_iff] at written
  obtain ⟨location, leads, written⟩ := written
  rw [← eq_resolve_of_locate leads] at below
  exact confined_of_writeAt below written

/-! ## Actions -/

theorem confined_ensureDirectory (path : Path) (tree : FileTree) :
    Confined directory tree (ensureDirectory path tree).2 := by
  rw [ensureDirectory]
  split
  · rename_i after made
    exact confined_of_makeDirectory made
  · split <;> exact .refl tree

theorem confined_ensureFirst (path : Path) (count missing : Nat) (tree : FileTree) :
    Confined directory tree (ensureFirst path count missing tree).2 := by
  induction count generalizing missing with
  | zero => exact confined_ensureDirectory _ tree
  | succ count ih =>
      simp only [ensureFirst]
      split
      · split
        · exact .refl tree
        · exact .andThen (ih _) fun middle _ => confined_ensureDirectory _ middle
      · exact confined_ensureDirectory _ tree

theorem confined_ensureFileAt (below : IsBelow directory location) (tree : FileTree) :
    Confined directory tree (ensureFileAt location tree).2 := by
  rw [ensureFileAt]
  split
  · exact .ofStep fun after written => confined_of_writeAt below written
  · exact .refl tree

theorem confined_ensureFiles {packages : List Location}
    (inside : ∀ package ∈ packages, directory <+: package) (tree : FileTree) :
    Confined directory tree (Action.inOrder (packages.map fun package =>
      ensureFileAt (package ++ [packageMark])) tree).2 := by
  induction packages generalizing tree with
  | nil => exact .refl tree
  | cons package rest ih =>
      rw [List.forall_mem_cons] at inside
      have below := isBelow_append inside.1 (List.cons_ne_nil packageMark [])
      exact .andThen (confined_ensureFileAt below tree) fun middle _ => ih inside.2 middle

/-- Packages are marked below the root only. -/
theorem confined_ensurePackages (root path : Path) (tree : FileTree) :
    Confined (tree.resolve root) tree (ensurePackages root path tree).2 := by
  rw [ensurePackages]
  split
  · exact .refl tree
  · apply confined_ensureFiles
    intro package member
    exact (mem_packages_iff.mp member).1

/-- Also a text that is refused touches no other file than its own. -/
theorem confined_writeText (below : IsBelow directory (tree.resolve path)) (text : String) :
    Confined directory tree (writeText path text tree).2 := by
  rw [writeText]
  split
  · exact .ofStep fun after written => confined_of_write below written
  · refine .andThen (.ofStep fun after written => confined_of_write below written) ?_
    exact fun opened _ => .refl opened

/-- A module whose path spells a location below the root changes no file anywhere else. -/
theorem confined_writeModule (below : IsBelow (tree.resolve root) (tree.resolve path))
    (source : String) :
    Confined (tree.resolve root) tree (writeModule root path source tree).2 := by
  refine .andThen (confined_ensureFirst _ _ _ tree) ?_
  intro housed houses
  rw [← houses.resolve root]
  refine .andThen (confined_ensurePackages root _ housed) ?_
  intro packaged packages
  have spells : packaged.resolve path = tree.resolve path :=
    (packages.resolve path).trans (houses.resolve path)
  rw [← houses.resolve root, ← spells] at below
  exact .andThen (confined_writeText below source) fun last _ => .refl last

end LexiconCompiler.FileTree
