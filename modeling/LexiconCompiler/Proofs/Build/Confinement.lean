import LexiconCompiler.Proofs.Build.Losses
import LexiconCompiler.Proofs.Module.Confinement

/-!
# Builds below the output root

A build writes each module where the id of its document leads. It touches no file outside
the output root as long as the modules lie below it, which is up to the ids: a segment that
starts with a slash takes the module anywhere.
-/

namespace LexiconCompiler.Build

open FileTree

variable {tree : FileTree} {schemaRoot outputRoot : Path} {outputs : List Output}
  {written : List Path}

theorem confined_writeAll (below : ∀ output ∈ outputs, Path.IsBelow outputRoot output.path)
    (tree : FileTree) :
    Confined (tree.resolve outputRoot) tree (writeAll outputRoot outputs tree).tree := by
  induction outputs generalizing tree with
  | nil => exact .refl tree
  | cons output rest ih =>
      rw [List.forall_mem_cons] at below
      have first := confined_writeModule (below.1.resolve tree) output.source
      rw [writeAll]
      cases ran : writeModule outputRoot output.path output.source tree with
      | mk result after =>
          rw [ran] at first
          cases result with
          | error error => exact first
          | ok done =>
              have later := ih below.2 after
              rw [first.resolve outputRoot] at later
              exact first.trans later

/-- A build whose modules lie below the output root changes no file outside it, however it
ends. -/
theorem confined_run
    (below : ∀ path ∈ tree.discover schemaRoot, ∀ document, tree.load path = .ok document →
      Path.IsBelow outputRoot (Module.path document.id outputRoot)) :
    Confined (tree.resolve outputRoot) tree (run schemaRoot outputRoot tree).tree := by
  rcases run_cases tree schemaRoot outputRoot with
    ⟨outputs, log, compiles, built⟩ | ⟨phase, failure, log, first, built⟩
  · rw [built]
    refine confined_writeAll ?_ tree
    intro output member
    obtain ⟨path, found, compiled⟩ := Traversal.exists_of_mem_right compiles member
    obtain ⟨one, ⟨read, _⟩, rfl⟩ := compiled.exists_compiled
    exact below path found one.document read
  · rw [built]
    exact .refl tree

/-- A build that succeeds leaves a file at each location that it returns. -/
theorem exists_file_of_run (built : (run schemaRoot outputRoot tree).result = .ok written)
    {path : Path} (member : path ∈ written) :
    ∃ content, (run schemaRoot outputRoot tree).tree.get? (tree.resolve path) =
      some (.file content) := by
  obtain ⟨outputs, -, rfl, leaves⟩ := run_leaves built
  obtain ⟨output, inside, rfl⟩ := List.mem_map.mp member
  obtain ⟨last, -, stands⟩ := leaves.stands output inside
  exact ⟨last.content, stands⟩

/-- The module for an id lies below the root iff no segment of the id but the last starts
with a slash, or the path that the id spells by itself lies there already. If the modules of
all documents lie below the output root, a build changes no file elsewhere. A build that
succeeds has written every module, also those that do not. -/
theorem run_stays_below (tree : FileTree) (schemaRoot outputRoot : Path) :
    (∀ id root, Path.IsBelow root (Module.path id root) ↔
      Module.IsRelative id ∨ Path.IsBelow root (Module.path id .current)) ∧
    ((∀ path ∈ tree.discover schemaRoot, ∀ document, tree.load path = .ok document →
        Path.IsBelow outputRoot (Module.path document.id outputRoot)) →
      Confined (tree.resolve outputRoot) tree (run schemaRoot outputRoot tree).tree) ∧
    ∀ written, (run schemaRoot outputRoot tree).result = .ok written → ∀ path ∈ written,
      ∃ content, (run schemaRoot outputRoot tree).tree.get? (tree.resolve path) =
        some (.file content) :=
  ⟨fun _ _ => Module.isBelow_path_iff, confined_run,
    fun _ built _ member => exists_file_of_run built member⟩

/-! ## Ids with and without a slash -/

theorem isRelative_meetingTree {path : Path} (member : path ∈ meetingTree.discover (.ofString "s"))
    {document : Document} (read : meetingTree.load path = .ok document) :
    Module.IsRelative document.id := by
  have named := id_of_mem_meetingTree member
  rw [read] at named
  rcases named with id | id <;> rw [Except.ok.inj id] <;> decide

theorem run_stays_below_meetingTree :
    Confined ["o"] meetingTree (run (.ofString "s") (.ofString "o") meetingTree).tree ∧
      ∀ path ∈ [Path.ofString "o/x/foo_bar.py", .ofString "o/x/foo_bar.py"], ∃ content,
        (run (.ofString "s") (.ofString "o") meetingTree).tree.get? (meetingTree.resolve path) =
          some (.file content) := by
  obtain ⟨below, confined, stand⟩ :=
    run_stays_below meetingTree (.ofString "s") (.ofString "o")
  refine ⟨confined ?_, stand _ run_meetingTree⟩
  intro path member document read
  exact (below _ _).mpr (.inl (isRelative_meetingTree member read))

/-- A document whose id starts with a slash. -/
def anchoredTree : FileTree :=
  CommandLine.treeOf [("s/a.json", "\x7b\"lexicon\":1,\"id\":\"/tmp.x\",\"defs\":" ++
    "\x7b\"main\":\x7b\"type\":\"object\",\"properties\":\x7b\x7d\x7d\x7d\x7d")]

theorem discover_anchoredTree :
    anchoredTree.discover (.ofString "s") = [.ofString "s/a.json"] :=
  CommandLine.discover_treeOf_single _

theorem run_anchoredTree : (run (.ofString "s") (.ofString "out") anchoredTree).result =
    .ok [.ofString "/tmp/x.py"] := by
  rw [run, readAll, discover_anchoredTree]
  decide +kernel

/-- The module of a document with an anchored id is written outside the output root. -/
theorem run_leaves_output_root :
    ¬ Path.IsBelow (.ofString "out") (Module.path "/tmp.x" (.ofString "out")) ∧
      (run (.ofString "s") (.ofString "out") anchoredTree).result =
        .ok [Module.path "/tmp.x" (.ofString "out")] ∧
      ¬ Confined (anchoredTree.resolve (.ofString "out")) anchoredTree
        (run (.ofString "s") (.ofString "out") anchoredTree).tree := by
  have path : Module.path "/tmp.x" (.ofString "out") = ⟨.top, ["tmp", "x.py"]⟩ := by
    decide +kernel
  refine ⟨?_, run_anchoredTree.trans (by rw [path]; rfl), ?_⟩
  · rw [path]
    intro below
    cases below.1
  · intro confined
    obtain ⟨content, stands⟩ := exists_file_of_run run_anchoredTree List.mem_cons_self
    have outside : ¬ IsBelow (anchoredTree.resolve (.ofString "out"))
        (anchoredTree.resolve (.ofString "/tmp/x.py")) := by
      intro below
      exact absurd below.1 (by decide)
    have before := (confined.files _ outside content).mp stands
    have absent : anchoredTree.get? (anchoredTree.resolve (.ofString "/tmp/x.py")) = none := by
      rfl
    cases absent.symm.trans before

end LexiconCompiler.Build
