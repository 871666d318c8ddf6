import LexiconCompiler.Proofs.Build.Changes

/-!
# Losses of a build

A build writes one module for each document, and nothing keeps it from writing two of them
to one place. It loses nothing as long as no two ids meet on one path, and whatever else
leads to one place has one source. This module states that condition for the ids of the
documents, and shows that it is needed.
-/

namespace LexiconCompiler.Build

open FileTree

variable {tree after : FileTree} {schemaRoot outputRoot : Path} {outputs : List Output}
  {written : List Path}

/-- A document with the source of its module. -/
structure Compiled where
  document : Document
  source : String

namespace Compiled

/-- The path of the module. -/
def path (outputRoot : Path) (compiled : Compiled) : Path :=
  Module.path compiled.document.id outputRoot

/-- The module as it is written. -/
def output (outputRoot : Path) (compiled : Compiled) : Output :=
  ⟨compiled.path outputRoot, compiled.source⟩

/-- A path leads to a document, and the source is generated from all its definitions. -/
def From (tree : FileTree) (path : Path) (compiled : Compiled) : Prop :=
  tree.load path = .ok compiled.document ∧
    (do Module.source compiled.document.id (← compiled.document.expand)) = .ok compiled.source

end Compiled

/-- No module is lost: the modules have different paths, and each stands where its path
leads. -/
def Keeps (outputRoot : Path) (compiled : List Compiled) (after : FileTree) : Prop :=
  (compiled.map (Compiled.path outputRoot)).Nodup ∧
    ∀ one ∈ compiled, after.find? (one.path outputRoot) =
      some (.file (one.output outputRoot).content)

/-! ## Documents and modules -/

theorem Compiles.exists_compiled {path : Path} {output : Output}
    (compiles : Compiles tree outputRoot path output) :
    ∃ compiled, Compiled.From tree path compiled ∧ compiled.output outputRoot = output := by
  cases compiles with
  | @generated document expanded _ read opened generated =>
      rw [expandDocument, Traversal.bind_eq_ok_iff] at opened
      obtain ⟨definitions, decoded, opened⟩ := opened
      cases opened
      rw [generate, Traversal.bind_eq_ok_iff] at generated
      obtain ⟨source, rendered, generated⟩ := generated
      cases generated
      refine ⟨⟨document, source⟩, ⟨read, ?_⟩, rfl⟩
      exact Traversal.bind_eq_ok_iff.mpr ⟨definitions, decoded, rendered⟩

theorem exists_compiled {paths : List Path}
    (compiles : List.Forall₂ (Compiles tree outputRoot) paths outputs) :
    ∃ compiled, List.Forall₂ (Compiled.From tree) paths compiled ∧
      compiled.map (Compiled.output outputRoot) = outputs := by
  induction compiles with
  | nil => exact ⟨[], .nil, rfl⟩
  | cons first rest ih =>
      obtain ⟨one, comes, rfl⟩ := first.exists_compiled
      obtain ⟨others, come, rfl⟩ := ih
      exact ⟨one :: others, .cons comes come, rfl⟩

/-- A build that succeeds generated a module for each document, and left them. -/
theorem compiled_of_run (built : (run schemaRoot outputRoot tree).result = .ok written) :
    ∃ compiled, List.Forall₂ (Compiled.From tree) (tree.discover schemaRoot) compiled ∧
      List.Forall₂ (Compiles tree outputRoot) (tree.discover schemaRoot)
        (compiled.map (Compiled.output outputRoot)) ∧
      written = compiled.map (Compiled.path outputRoot) ∧
      Leaves outputRoot (compiled.map (Compiled.output outputRoot)) tree
        (run schemaRoot outputRoot tree).tree := by
  obtain ⟨outputs, compiles, named, finished, same⟩ := writeAll_of_run built
  obtain ⟨compiled, come, rfl⟩ := exists_compiled compiles
  obtain ⟨rfl, leaves⟩ := leaves_of_writeAll named finished
  rw [← same] at leaves
  refine ⟨compiled, come, compiles, ?_, leaves⟩
  rw [List.map_map]
  rfl

/-! ## Modules that are replaced -/

theorem Leaves.find?_eq (leaves : Leaves outputRoot outputs tree after) {output : Output}
    (member : output ∈ outputs) :
    after.find? output.path = after.get? (tree.resolve output.path) := by
  rw [FileTree.find?, leaves.leads output member]

/-- Every module stands iff those that are written to one place have one source. -/
theorem Leaves.stand_iff (leaves : Leaves outputRoot outputs tree after) :
    (∀ output ∈ outputs, after.find? output.path = some (.file output.content)) ↔
      outputs.Pairwise fun first second =>
        tree.resolve first.path = tree.resolve second.path → first.source = second.source := by
  constructor
  · intro stand
    apply List.pairwise_of_forall_mem_list
    intro first early second late same
    have both := stand first early
    rw [leaves.find?_eq early, same, ← leaves.find?_eq late, stand second late] at both
    exact (Output.content_inj.mp (Node.file.inj (Option.some.inj both))).symm
  · intro sources output member
    obtain ⟨last, ⟨earlier, later, rfl, here, others⟩, stands⟩ := leaves.stands output member
    rw [leaves.find?_eq member, stands, Output.content, Output.content]
    rw [List.mem_append, List.mem_cons] at member
    rcases member with before | rfl | behind
    · have across := (List.pairwise_append.mp sources).2.2
      rw [across output before last List.mem_cons_self here.symm]
    · rfl
    · exact absurd rfl (others output behind)

theorem keeps_iff {compiled : List Compiled}
    (leaves : Leaves outputRoot (compiled.map (Compiled.output outputRoot)) tree after) :
    Keeps outputRoot compiled after ↔ compiled.Pairwise fun first second =>
      ¬ Module.Meet outputRoot first.document.id second.document.id ∧
        (tree.resolve (first.path outputRoot) = tree.resolve (second.path outputRoot) →
          first.source = second.source) := by
  have stand := leaves.stand_iff
  rw [List.forall_mem_map, List.pairwise_map] at stand
  rw [List.pairwise_and_iff, Keeps]
  refine and_congr ?_ stand
  rw [List.Nodup, List.pairwise_map]
  simp only [Compiled.path, ne_eq, Module.path_inj]

/-- Among ordinary ids only those that meet are written to one place. -/
theorem keeps_iff_of_isOrdinary {compiled : List Compiled}
    (leaves : Leaves outputRoot (compiled.map (Compiled.output outputRoot)) tree after)
    (ordinary : ∀ one ∈ compiled, Module.isOrdinary one.document.id = true) :
    Keeps outputRoot compiled after ↔ compiled.Pairwise fun first second =>
      ¬ ((Name.segments first.document.id).dropLast =
          (Name.segments second.document.id).dropLast ∧
        Module.stem first.document.id = Module.stem second.document.id) := by
  rw [keeps_iff leaves]
  apply List.Pairwise.iff_of_mem
  intro first second early late
  rw [Compiled.path, Compiled.path,
    Module.resolve_path_inj_of_isOrdinary (ordinary first early) (ordinary second late),
    ← Module.meet_iff_of_isOrdinary (ordinary first early) (ordinary second late)]
  exact and_iff_left_of_imp fun apart meet => absurd meet apart

/-- A build that succeeds returns one path for each document, in their order. It loses no
module iff no two ids meet and modules that are written to one place have one source; for
ordinary ids this comes down to their segments. -/
theorem run_keeps_iff (built : (run schemaRoot outputRoot tree).result = .ok written) :
    ∃ compiled, List.Forall₂ (Compiled.From tree) (tree.discover schemaRoot) compiled ∧
      written = compiled.map (Compiled.path outputRoot) ∧
      (Keeps outputRoot compiled (run schemaRoot outputRoot tree).tree ↔
        compiled.Pairwise fun first second =>
          ¬ Module.Meet outputRoot first.document.id second.document.id ∧
            (tree.resolve (first.path outputRoot) = tree.resolve (second.path outputRoot) →
              first.source = second.source)) ∧
      ((∀ one ∈ compiled, Module.isOrdinary one.document.id = true) →
        (Keeps outputRoot compiled (run schemaRoot outputRoot tree).tree ↔
          compiled.Pairwise fun first second =>
            ¬ ((Name.segments first.document.id).dropLast =
                (Name.segments second.document.id).dropLast ∧
              Module.stem first.document.id = Module.stem second.document.id))) := by
  obtain ⟨compiled, come, -, paths, leaves⟩ := compiled_of_run built
  exact ⟨compiled, come, paths, keeps_iff leaves, keeps_iff_of_isOrdinary leaves⟩

theorem run_keeps_iff_meetingTree :
    (run (.ofString "s") (.ofString "o") meetingTree).result =
        .ok [.ofString "o/x/foo_bar.py", .ofString "o/x/foo_bar.py"] ∧
      ∃ compiled,
        List.Forall₂ (Compiled.From meetingTree) (meetingTree.discover (.ofString "s")) compiled ∧
        [.ofString "o/x/foo_bar.py", .ofString "o/x/foo_bar.py"] =
          compiled.map (Compiled.path (.ofString "o")) ∧
        (Keeps (.ofString "o") compiled
            (run (.ofString "s") (.ofString "o") meetingTree).tree ↔
          compiled.Pairwise fun first second =>
            ¬ Module.Meet (.ofString "o") first.document.id second.document.id ∧
              (meetingTree.resolve (first.path (.ofString "o")) =
                  meetingTree.resolve (second.path (.ofString "o")) →
                first.source = second.source)) := by
  obtain ⟨compiled, come, paths, keeps, -⟩ := run_keeps_iff run_meetingTree
  exact ⟨run_meetingTree, compiled, come, paths, keeps⟩

/-- Two ids that differ only in the casing of the last segment: the build succeeds, both
paths are the same, and one of the modules does not stand there. -/
theorem run_loses_meeting_module :
    ∃ compiled,
      List.Forall₂ (Compiled.From meetingTree) (meetingTree.discover (.ofString "s")) compiled ∧
      (run (.ofString "s") (.ofString "o") meetingTree).result =
        .ok (compiled.map (Compiled.path (.ofString "o"))) ∧
      ¬ (compiled.map (Compiled.path (.ofString "o"))).Nodup ∧
      ∃ lost ∈ compiled,
        (run (.ofString "s") (.ofString "o") meetingTree).tree.find?
            (lost.path (.ofString "o")) ≠
          some (.file (lost.output (.ofString "o")).content) := by
  obtain ⟨compiled, come, compiles, paths, leaves⟩ := compiled_of_run run_meetingTree
  refine ⟨compiled, come, paths ▸ run_meetingTree, by simp [← paths], ?_⟩
  by_contra stand
  push Not at stand
  have sources := leaves.stand_iff.mp (List.forall_mem_map.mpr stand)
  obtain ⟨first, second, rfl⟩ : ∃ first second, compiled = [first, second] := by
    apply List.length_eq_two.mp
    simpa using (congrArg List.length paths).symm
  simp only [List.map_cons, List.map_nil, List.cons.injEq, and_true] at paths
  rw [discover_meetingTree] at compiles
  simp only [List.map_cons, List.map_nil, List.forall₂_cons] at compiles
  have meet : first.path (.ofString "o") = second.path (.ofString "o") :=
    paths.1.symm.trans paths.2
  have source : first.source = second.source := by
    simpa [Compiled.output, meet] using sources
  apply compile_meetingTree
  rw [compiles.1.compile_eq, compiles.2.1.compile_eq, Compiled.output, Compiled.output, meet,
    source]

end LexiconCompiler.Build
