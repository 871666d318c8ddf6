import LexiconCompiler.Proofs.Build.Changes
import LexiconCompiler.Proofs.FileTree.Documents
import LexiconCompiler.Proofs.FileTree.Rewriting

/-!
# Builds that are repeated

A build that succeeds makes no documents and changes none, wherever the output root lies, so
a second build reads what the first one read and writes the same modules. They stand already,
and a module that is replaced by a later one is replaced again. The files are left as they
are.
-/

namespace LexiconCompiler.Build

open FileTree

variable {tree before after : FileTree} {schemaRoot outputRoot : Path} {documents : List Document}
  {output : Output} {outputs : List Output} {location : Location} {written : List Path}
  {log : List Log.Record}

/-! ## Writing modules that stand -/

theorem Leaves.houses (leaves : Leaves outputRoot outputs before after)
    (member : output ∈ outputs) : Houses outputRoot output.path after := by
  have spells := leaves.resolve
  refine ⟨?_, ?_, ?_⟩
  · rw [spells]
    exact leaves.leads output member
  · obtain ⟨last, _, stands⟩ := leaves.stands output member
    rw [spells]
    exact ⟨last.content, stands⟩
  · intro package inside
    rw [leaves.isPackage] at inside
    exact leaves.packaged output member package inside

/-- The host takes all modules that are written. -/
theorem accepts_of_writeAll (finished : (writeAll outputRoot outputs tree).result = .ok written) :
    ∀ output ∈ outputs, tree.host.Accepts outputRoot output.source := by
  induction outputs generalizing tree written with
  | nil => exact List.forall_mem_nil _
  | cons output rest ih =>
      rw [writeAll] at finished
      cases ran : writeModule outputRoot output.path output.source tree with
      | mk result middle =>
          rw [ran] at finished
          cases result with
          | error error => cases finished
          | ok done =>
              obtain ⟨others, complete, -⟩ := Traversal.map_eq_ok_iff.mp finished
              obtain ⟨_, _, _, grows⟩ := writeModule_eq_ok ran
              refine List.forall_mem_cons.mpr ⟨accepts_of_writeModule ran, ?_⟩
              rw [← grows.host]
              exact ih complete

/-- Modules that stand can all be written again, and no node is made. -/
theorem writeAll_of_houses (named : ∀ output ∈ outputs, NamesFile output.path)
    (houses : ∀ output ∈ outputs, Houses outputRoot output.path tree)
    (accepts : ∀ output ∈ outputs, tree.host.Accepts outputRoot output.source) :
    (writeAll outputRoot outputs tree).result = .ok (outputs.map Output.path) ∧
      (writeAll outputRoot outputs tree).tree.nodes.keys = tree.nodes.keys := by
  induction outputs generalizing tree with
  | nil => exact ⟨rfl, rfl⟩
  | cons output rest ih =>
      rw [List.forall_mem_cons] at named houses accepts
      obtain ⟨earlier, stands⟩ := houses.1.stands
      have again := writeModule_of_houses houses.1 named.1 accepts.1
      have housed := fun other member =>
        (houses.2 other member).put (houses.1.admits (Encoding.Utf8.encode output.source.toList))
      obtain ⟨result, keys⟩ := ih named.2 housed accepts.2
      simp only [writeAll, again, result, keys]
      exact ⟨rfl, keys_put_of_file stands⟩

/-- One module is the last whose path denotes a location. -/
theorem LastAt.unique {first second : Output} (early : LastAt tree outputs location first)
    (late : LastAt tree outputs location second) : first = second := by
  obtain ⟨before, after, split, here, others⟩ := early
  obtain ⟨front, back, resplit, there, rest⟩ := late
  rcases List.append_eq_append_iff.mp (split.symm.trans resplit) with
    ⟨between, rfl, tail⟩ | ⟨between, rfl, tail⟩
  · cases between with
    | nil =>
        cases tail
        rfl
    | cons head between =>
        cases tail
        exact absurd there (others second (by simp))
  · cases between with
    | nil =>
        cases tail
        rfl
    | cons head between =>
        cases tail
        exact absurd here (rest first (by simp))

/-- What is left by writing modules twice is what writing them once leaves. -/
theorem Leaves.get?_eq (first : Leaves outputRoot outputs tree before)
    (second : Leaves outputRoot outputs before after) (location : Location) :
    after.get? location = before.get? location := by
  have spells := first.resolve
  by_cases again : location ∈ outputs.map fun output => before.resolve output.path
  · obtain ⟨output, member, rfl⟩ := List.mem_map.mp again
    obtain ⟨last, late, stands⟩ := second.stands output member
    obtain ⟨other, early, stood⟩ := first.stands output member
    simp only [LastAt, spells] at late stands ⊢
    rw [stands, stood, LastAt.unique late early]
  · cases stood : before.get? location with
    | some node =>
        cases node with
        | directory => exact second.directories location stood
        | file content => exact second.files location again content stood
    | none =>
        cases stands : after.get? location with
        | none => rfl
        | some node =>
            rcases second.fresh location node stood stands with
              member | ⟨_, output, member, onWay⟩ | ⟨_, output, member, package, inside, rfl⟩
            · exact absurd member again
            · have stays := isDirectory_of_onWay (first.houses member).leads onWay
              rw [stood] at stays
              cases stays
            · exact absurd stood ((first.houses member).packaged package inside)

/-- Writing modules a second time leaves the tree as the first time did. -/
theorem tree_writeAll_of_leaves (named : ∀ output ∈ outputs, NamesFile output.path)
    (accepts : ∀ output ∈ outputs, before.host.Accepts outputRoot output.source)
    (leaves : Leaves outputRoot outputs tree before) :
    (writeAll outputRoot outputs before).tree = before := by
  obtain ⟨result, keys⟩ :=
    writeAll_of_houses named (fun output member => leaves.houses member) accepts
  have again := (leaves_of_writeAll named result).2
  exact eq_of_keys again.host keys (leaves.get?_eq again) again.workingDirectory

/-- Every path that is written is logged. -/
theorem log_writeAll (finished : (writeAll outputRoot outputs tree).result = .ok written) :
    (writeAll outputRoot outputs tree).log = written.map generatedRecord := by
  induction outputs generalizing tree written with
  | nil =>
      cases finished
      rfl
  | cons output rest ih =>
      rw [writeAll] at finished ⊢
      split at finished
      · cases finished
      · obtain ⟨others, complete, rfl⟩ := Traversal.map_eq_ok_iff.mp finished
        dsimp only
        rw [ih complete, List.map_cons]

/-! ## Reading documents again -/

/-- Modules that are prepared have paths for the ids of documents. -/
theorem exists_path_of_prepare (prepared : prepare outputRoot documents = (log, .ok outputs))
    (member : output ∈ outputs) : ∃ id, output.path = Module.path id outputRoot := by
  rw [prepare] at prepared
  split at prepared
  · cases prepared
  · rename_i expanded opened
    cases generating : expanded.mapM (generate outputRoot) with
    | error error =>
        rw [generating] at prepared
        cases prepared
    | ok modules =>
        rw [generating] at prepared
        cases prepared
        obtain ⟨document, _, generated⟩ := Traversal.exists_of_mem_right
          (Traversal.mapM_eq_ok_iff.mp generating) member
        exact ⟨document.id, path_of_generate generated⟩

/-- No module is a document. -/
theorem namesDocument_resolve_path (tree : FileTree) (id : String) (root : Path) :
    namesDocument (tree.resolve (Module.path id root)) = false := by
  have named : ∀ name ∈ [Module.fileName (Name.lastSegment id)], isName name = true := by
    intro name member
    rw [List.mem_singleton.mp member]
    exact Module.isName_fileName _
  have ending : ¬ documentEnding.toList <:+
      (Module.fileName (Name.lastSegment id)).toList := by
    intro ⟨front, same⟩
    have last := congrArg List.getLast? same
    simp [Module.fileName, documentEnding] at last
  rw [Module.path_eq, resolve_append (Module.directory id root) named, namesDocument,
    List.getLast?_concat, ← Bool.not_eq_true, List.isSuffixOf_iff_suffix]
  exact ending

/-- The mark of a package is no document. -/
theorem namesDocument_packageMark (package : Location) :
    namesDocument (package ++ [packageMark]) = false := by
  rw [namesDocument, List.getLast?_concat]
  decide

/-- A build that succeeds leaves every document as it was read. -/
theorem readAll_of_leaves (leaves : Leaves outputRoot outputs tree after)
    (paths : ∀ output ∈ outputs, ∃ id, output.path = Module.path id outputRoot)
    (any : tree.discover schemaRoot ≠ []) (read : readAll tree schemaRoot = .ok documents) :
    readAll after schemaRoot = .ok documents := by
  have spared : ∀ location ∈ outputs.map fun output => tree.resolve output.path,
      namesDocument location = false := by
    intro location member
    obtain ⟨output, inside, rfl⟩ := List.mem_map.mp member
    obtain ⟨id, path⟩ := paths output inside
    rw [path]
    exact namesDocument_resolve_path tree id outputRoot
  have unmarked : ∀ location, MarksPackage tree outputRoot outputs location →
      namesDocument location = false := by
    rintro location ⟨output, _, package, _, rfl⟩
    exact namesDocument_packageMark package
  rw [readAll, Traversal.mapM_eq_ok_iff] at read ⊢
  rw [leaves.discover spared unmarked any]
  have found : ∀ path ∈ tree.discover schemaRoot, ∀ document,
      tree.load path = .ok document → after.load path = .ok document := by
    intro path member document loaded
    rw [load] at loaded ⊢
    split at loaded
    · cases loaded
    · rename_i content opened
      rw [leaves.read spared unmarked member opened, leaves.host]
      exact loaded
  have all := (List.forall₂_and_left _ _).mpr ⟨fun _ member => member, read⟩
  exact all.imp fun path document loaded => found path loaded.1 document loaded.2

/-! ## Builds -/

/-- A build that succeeds prepared modules from documents and wrote them all. -/
theorem prepare_of_run (built : (run schemaRoot outputRoot tree).result = .ok written) :
    ∃ documents log outputs, readAll tree schemaRoot = .ok documents ∧
      prepare outputRoot documents = (log, .ok outputs) ∧
      (writeAll outputRoot outputs tree).result = .ok written := by
  rw [run] at built
  split at built
  · cases built
  · rename_i documents read
    split at built
    · cases built
    · rename_i log outputs prepared
      exact ⟨documents, log, outputs, read, prepared, built⟩

/-- What a build does is decided by the documents that it reads. -/
theorem run_of_prepare (read : readAll tree schemaRoot = .ok documents)
    (prepared : prepare outputRoot documents = (log, .ok outputs)) :
    run schemaRoot outputRoot tree =
      { writeAll outputRoot outputs tree with
        log := log ++ (writeAll outputRoot outputs tree).log } := by
  rw [run, read]
  dsimp only
  rw [prepared]

/-- Without documents nothing is written. -/
theorem eq_nil_of_prepare_nil (prepared : prepare outputRoot [] = (log, .ok outputs)) :
    outputs = [] := by
  simp only [prepare, List.mapM_nil] at prepared
  cases prepared
  rfl

/-- A build that succeeds may be repeated: it succeeds with the same paths and the same log,
and leaves the files exactly as the first build left them. -/
theorem run_again (built : (run schemaRoot outputRoot tree).result = .ok written) :
    (run schemaRoot outputRoot (run schemaRoot outputRoot tree).tree).result = .ok written ∧
      (run schemaRoot outputRoot (run schemaRoot outputRoot tree).tree).log =
        (run schemaRoot outputRoot tree).log ∧
      (run schemaRoot outputRoot (run schemaRoot outputRoot tree).tree).tree =
        (run schemaRoot outputRoot tree).tree := by
  obtain ⟨documents, log, outputs, read, prepared, finished⟩ := prepare_of_run built
  rw [run_of_prepare read prepared]
  dsimp only
  have paths : ∀ output ∈ outputs, ∃ id, output.path = Module.path id outputRoot :=
    fun output member => exists_path_of_prepare prepared member
  have named : ∀ output ∈ outputs, NamesFile output.path := by
    intro output member
    obtain ⟨id, path⟩ := paths output member
    rw [path]
    exact Module.namesFile_path id outputRoot
  obtain ⟨rfl, leaves⟩ := leaves_of_writeAll named finished
  have accepts := accepts_of_writeAll finished
  rw [← leaves.host] at accepts
  -- a schema root in which nothing was found may come to be a directory only by a write
  have again : readAll (writeAll outputRoot outputs tree).tree schemaRoot = .ok documents := by
    by_cases any : tree.discover schemaRoot = []
    · have none : documents = [] := by
        rw [readAll, any, List.mapM_nil] at read
        exact (Except.ok.inj read).symm
      rw [none] at prepared
      rw [eq_nil_of_prepare_nil prepared]
      exact read
    · exact readAll_of_leaves leaves paths any read
  obtain ⟨result, _⟩ :=
    writeAll_of_houses named (fun output member => leaves.houses member) accepts
  rw [run_of_prepare again prepared]
  dsimp only
  rw [log_writeAll result, log_writeAll finished, tree_writeAll_of_leaves named accepts leaves]
  exact ⟨result, rfl, rfl⟩

/-! ## Writing among the documents -/

theorem run_below_schemaRoot :
    (run (.ofString "s") (.ofString "s/o") meetingTree).result =
      .ok [.ofString "s/o/x/foo_bar.py", .ofString "s/o/x/foo_bar.py"] := by
  rw [run, readAll, discover_meetingTree]
  decide +kernel

theorem run_again_below_schemaRoot :
    (run (.ofString "s") (.ofString "s/o") meetingTree).result =
        .ok [.ofString "s/o/x/foo_bar.py", .ofString "s/o/x/foo_bar.py"] ∧
      (run (.ofString "s") (.ofString "s/o")
          (run (.ofString "s") (.ofString "s/o") meetingTree).tree).result =
        .ok [.ofString "s/o/x/foo_bar.py", .ofString "s/o/x/foo_bar.py"] ∧
      (run (.ofString "s") (.ofString "s/o")
          (run (.ofString "s") (.ofString "s/o") meetingTree).tree).log =
        (run (.ofString "s") (.ofString "s/o") meetingTree).log ∧
      (run (.ofString "s") (.ofString "s/o")
          (run (.ofString "s") (.ofString "s/o") meetingTree).tree).tree =
        (run (.ofString "s") (.ofString "s/o") meetingTree).tree :=
  ⟨run_below_schemaRoot, run_again run_below_schemaRoot⟩

end LexiconCompiler.Build
