import LexiconCompiler.Proofs.Build.Changes
import LexiconCompiler.Proofs.Document.Failures
import LexiconCompiler.Proofs.FileTree.Discovery
import LexiconCompiler.Proofs.FileTree.Refusals

/-!
# Failures of a build

A build should end with an error of a document or with what the system reports about files.
It can end with something else in two ways. A document that is read comes to a whole number
of too many digits, or a module is refused before the system is asked about its files. This
module says exactly when either happens, and how the program ends.
-/

namespace LexiconCompiler

open Traversal

variable {tree : FileTree} {schemaRoot outputRoot path : Path} {failure : BuildFailure}
  {error : FileError} {digits : Nat} {outputs : List Build.Output}

/-- A failure that a build should end with: an error of a document, or one that the system
reports about files. -/
def BuildFailure.IsExpected (failure : BuildFailure) : Prop :=
  (∃ error, failure = .rejected error) ∨
    ∃ error, failure = .file error ∧ error.fromSystem = true

/-! ## Reading -/

namespace FileTree

theorem load_eq_integerTooLong_iff :
    tree.load path = .error (.integerTooLong digits) ↔
      ∃ content, tree.read path = .ok content ∧
        (Input.bytes content).ReachesLong tree.host.nestingLimit digits := by
  rw [load]
  cases opened : tree.read path with
  | error error => simp
  | ok content =>
      simp only [Except.ok.injEq, exists_eq_left',
        ← Document.parse_eq_integerTooLong_iff (some path.text)]
      cases parsed : Document.parse tree.host.nestingLimit (some path.text)
        (.bytes content) with
      | ok document => simp
      | error failure => cases failure <;> simp [ReadFailure.toBuildFailure]

/-- The first document below a root that cannot be loaded comes to a whole number of too many
digits. -/
def ReachesLong (tree : FileTree) (schemaRoot : Path) (digits : Nat) : Prop :=
  ∃ before path after content, tree.discover schemaRoot = before ++ path :: after ∧
    (∀ earlier ∈ before, ∃ document, tree.load earlier = .ok document) ∧
    tree.read path = .ok content ∧
    (Input.bytes content).ReachesLong tree.host.nestingLimit digits

/-- A document that is found is a file, so it can be opened. -/
theorem load_ne_file_of_mem_discover (found : path ∈ tree.discover schemaRoot) :
    tree.load path ≠ .error (.file error) := by
  obtain ⟨_, _, _, _, ⟨content, stands⟩, _⟩ := mem_discover_iff_isDocumentUnder.mp found
  have opened : tree.read path = .ok content := by
    rw [find?] at stands
    split at stands
    · rename_i location leads
      rw [read, bind_eq_ok_iff]
      exact ⟨location, leads, by rw [stands]⟩
    · cases stands
  rw [load, opened]
  dsimp only
  cases Document.parse tree.host.nestingLimit (some path.text) (.bytes content) with
  | ok document => simp
  | error failure => cases failure <;> simp [ReadFailure.toBuildFailure]

end FileTree

/-! ## Writing -/

namespace Build

/-- Writing modules comes to one of them, with the tree that those before it leave. -/
inductive ComesTo (outputRoot : Path) : List Output → FileTree → Output → FileTree → Prop where
  | here {output : Output} {later : List Output} {tree : FileTree} :
      ComesTo outputRoot (output :: later) tree output tree
  | later {first output : Output} {rest : List Output} {tree middle before : FileTree}
      (written : FileTree.writeModule outputRoot first.path first.source tree = (.ok (), middle))
      (comes : ComesTo outputRoot rest middle output before) :
      ComesTo outputRoot (first :: rest) tree output before

variable {output : Output} {before : FileTree}

theorem ComesTo.mem (comes : ComesTo outputRoot outputs tree output before) :
    output ∈ outputs := by
  induction comes with
  | here => exact List.mem_cons_self
  | later _ _ ih => exact List.mem_cons_of_mem _ ih

theorem ComesTo.host_eq (comes : ComesTo outputRoot outputs tree output before) :
    before.host = tree.host := by
  induction comes with
  | here => rfl
  | later written _ ih =>
      obtain ⟨_, _, _, grows⟩ := FileTree.writeModule_eq_ok written
      exact ih.trans grows.host

/-- Writing fails at a module that it comes to, and only files make it fail. -/
theorem writeAll_eq_error_iff :
    (writeAll outputRoot outputs tree).result = .error failure ↔
      ∃ output before error, ComesTo outputRoot outputs tree output before ∧
        (FileTree.writeModule outputRoot output.path output.source before).1 = .error error ∧
        failure = .file error := by
  induction outputs generalizing tree with
  | nil =>
      constructor
      · rintro ⟨⟩
      · rintro ⟨_, _, _, ⟨⟩, _⟩
  | cons first rest ih =>
      rw [writeAll]
      cases ran : FileTree.writeModule outputRoot first.path first.source tree with
      | mk result middle =>
          cases result with
          | error error =>
              constructor
              · rintro ⟨⟩
                exact ⟨first, tree, error, .here, by rw [ran], rfl⟩
              · rintro ⟨output, before, other, comes, fails, rfl⟩
                cases comes with
                | here =>
                    rw [ran] at fails
                    cases fails
                    rfl
                | later written _ => cases ran.symm.trans written
          | ok done =>
              refine map_eq_error_iff.trans (ih.trans ?_)
              constructor
              · rintro ⟨output, before, error, comes, fails, same⟩
                exact ⟨output, before, error, .later ran comes, fails, same⟩
              · rintro ⟨output, before, error, comes, fails, same⟩
                cases comes with
                | here =>
                    rw [ran] at fails
                    cases fails
                | later written comes =>
                    cases ran.symm.trans written
                    exact ⟨output, before, error, comes, fails, same⟩

/-- The module of a document is refused exactly for one of the reasons. -/
theorem Compiles.refused_iff (compiles : Compiles tree outputRoot path output) :
    Refused (FileTree.writeModule outputRoot output.path output.source before).1 error ↔
      FileTree.RefusesModule before outputRoot output.path output.source error := by
  obtain ⟨id, leads⟩ := compiles.exists_id
  have split : output.path.parts =
      output.path.parent.parts ++ [Module.fileName (Name.lastSegment id)] := by
    rw [leads, Module.parent_path, Module.path_eq]
  exact FileTree.refused_writeModule_iff split (Module.spells_fileName before.host _)

/-! ## Building -/

/-- What the documents are compiled to is determined. -/
theorem outputs_unique {paths : List Path} {others : List Output}
    (first : List.Forall₂ (Compiles tree outputRoot) paths outputs)
    (second : List.Forall₂ (Compiles tree outputRoot) paths others) : outputs = others := by
  have unique : Relator.RightUnique (Compiles tree outputRoot) := by
    intro path output other compiled again
    exact Except.ok.inj (compiled.compile_eq.symm.trans again.compile_eq)
  exact List.right_unique_forall₂' unique first second

/-- No document makes a build fail by a file. -/
theorem FirstFailure.ne_file {phase : Phase}
    (first : FirstFailure tree schemaRoot outputRoot phase failure) : failure ≠ .file error := by
  obtain ⟨before, path, after, split, fails, _⟩ := first
  cases fails with
  | reading unread =>
      rintro rfl
      exact FileTree.load_ne_file_of_mem_discover (by rw [split]; simp) unread
  | expanding => rintro ⟨⟩
  | generating => rintro ⟨⟩

/-- A file makes a build fail exactly while the modules of all documents are written. -/
theorem run_eq_file_iff :
    (run schemaRoot outputRoot tree).result = .error (.file error) ↔
      ∃ outputs, List.Forall₂ (Compiles tree outputRoot) (tree.discover schemaRoot) outputs ∧
        (writeAll outputRoot outputs tree).result = .error (.file error) := by
  rcases run_cases tree schemaRoot outputRoot with
    ⟨outputs, log, compiles, built⟩ | ⟨phase, failure, log, first, built⟩
  · rw [built]
    constructor
    · intro failed
      exact ⟨outputs, compiles, failed⟩
    · rintro ⟨others, again, failed⟩
      rwa [outputs_unique compiles again]
  · rw [built]
    constructor
    · rintro ⟨⟩
      exact absurd rfl first.ne_file
    · rintro ⟨outputs, compiles, _⟩
      exact absurd compiles first.not_compiles

/-- All documents are compiled, and writing their modules comes to one that is refused. -/
def RefusesOutput (tree : FileTree) (schemaRoot outputRoot : Path) (error : FileError) : Prop :=
  ∃ outputs output before,
    List.Forall₂ (Compiles tree outputRoot) (tree.discover schemaRoot) outputs ∧
    ComesTo outputRoot outputs tree output before ∧
    FileTree.RefusesModule before outputRoot output.path output.source error

/-- A build fails by a file without a report of the system exactly if a module is refused. -/
theorem run_refused_iff :
    (run schemaRoot outputRoot tree).result = .error (.file error) ∧
        error.fromSystem = false ↔
      RefusesOutput tree schemaRoot outputRoot error := by
  rw [run_eq_file_iff]
  constructor
  · rintro ⟨⟨outputs, compiles, failed⟩, beyond⟩
    obtain ⟨output, before, _, comes, fails, ⟨⟩⟩ := writeAll_eq_error_iff.mp failed
    obtain ⟨path, _, compiled⟩ := exists_of_mem_right compiles comes.mem
    exact ⟨outputs, output, before, compiles, comes, compiled.refused_iff.mp ⟨fails, beyond⟩⟩
  · rintro ⟨outputs, output, before, compiles, comes, refuses⟩
    obtain ⟨path, _, compiled⟩ := exists_of_mem_right compiles comes.mem
    obtain ⟨fails, beyond⟩ := compiled.refused_iff.mpr refuses
    have failed := writeAll_eq_error_iff.mpr ⟨output, before, error, comes, fails, rfl⟩
    exact ⟨⟨outputs, compiles, failed⟩, beyond⟩

/-- Some document is compiled to a module that shows why one is refused. -/
theorem RefusesOutput.exists_showsError
    (refuses : RefusesOutput tree schemaRoot outputRoot error) :
    ∃ path ∈ tree.discover schemaRoot, ∃ output, Compiles tree outputRoot path output ∧
      FileTree.ShowsError tree.host outputRoot output.path output.source error := by
  obtain ⟨outputs, output, before, compiles, comes, refused⟩ := refuses
  obtain ⟨path, member, compiled⟩ := exists_of_mem_right compiles comes.mem
  exact ⟨path, member, output, compiled, comes.host_eq ▸ refused.showsError⟩

/-- A build ends with a whole number of too many digits exactly if the first document that
cannot be loaded comes to it. -/
theorem run_eq_integerTooLong_iff (outputRoot : Path) :
    (run schemaRoot outputRoot tree).result = .error (.integerTooLong digits) ↔
      tree.ReachesLong schemaRoot digits := by
  have reads : (run schemaRoot outputRoot tree).result = .error (.integerTooLong digits) ↔
      readAll tree schemaRoot = .error (.integerTooLong digits) := by
    rw [run]
    constructor
    · intro failed
      split at failed
      · rename_i unread
        cases failed
        exact unread
      · split at failed
        · cases failed
        · obtain ⟨_, _, _, _, _, impossible⟩ := writeAll_eq_error_iff.mp failed
          cases impossible
    · intro unread
      rw [unread]
  rw [reads, readAll, mapM_eq_error_iff]
  constructor
  · rintro ⟨before, path, after, split, passes, fails⟩
    obtain ⟨content, opened, long⟩ := FileTree.load_eq_integerTooLong_iff.mp fails
    exact ⟨before, path, after, content, split, passes, opened, long⟩
  · rintro ⟨before, path, after, content, split, passes, opened, long⟩
    exact ⟨before, path, after, split, passes,
      FileTree.load_eq_integerTooLong_iff.mpr ⟨content, opened, long⟩⟩

/-- A build that fails ends as expected exactly if no document comes to a whole number of too
many digits and no module is refused. -/
theorem run_isExpected_iff (tree : FileTree) (schemaRoot outputRoot : Path) :
    (∀ failure, (run schemaRoot outputRoot tree).result = .error failure →
        failure.IsExpected) ↔
      (∀ digits, ¬ tree.ReachesLong schemaRoot digits) ∧
        ∀ error, ¬ RefusesOutput tree schemaRoot outputRoot error := by
  simp only [← run_eq_integerTooLong_iff outputRoot, ← run_refused_iff]
  constructor
  · intro expected
    constructor
    · intro digits long
      rcases expected _ long with ⟨_, ⟨⟩⟩ | ⟨_, ⟨⟩, _⟩
    · rintro error ⟨failed, beyond⟩
      rcases expected _ failed with ⟨_, ⟨⟩⟩ | ⟨_, ⟨⟩, reported⟩
      cases beyond.symm.trans reported
  · rintro ⟨short, taken⟩ failure failed
    cases failure with
    | rejected error => exact .inl ⟨error, rfl⟩
    | integerTooLong digits => exact absurd failed (short digits)
    | file error =>
        refine .inr ⟨error, rfl, ?_⟩
        rw [← Bool.not_eq_false]
        exact fun beyond => taken error ⟨failed, beyond⟩

end Build

/-! ## Reporting -/

namespace CommandLine

open Build

theorem result_faultyTree :
    (Build.run (.ofString "s") (.ofString "o") faultyTree).result =
      .error (.rejected unreadError) := by
  obtain ⟨log, built⟩ := firstFailure_faultyTree.run_eq
  rw [built]

/-- A document that is compiled to a directory with the null character in its name. -/
def nullTree : FileTree :=
  treeOf [("s/a.json", "\x7b\"lexicon\":1,\"id\":\"a\\u0000b.c\",\"defs\":" ++
    "\x7b\"main\":\x7b\"type\":\"object\",\"properties\":\x7b\x7d\x7d\x7d\x7d")]

/-- A document that is compiled to a source with a surrogate. -/
def surrogateTree : FileTree :=
  treeOf [("s/a.json", "\x7b\"lexicon\":1,\"id\":\"a.b\",\"defs\":" ++
    "\x7b\"main\":\x7b\"type\":\"object\",\"description\":\"\\ud800\"," ++
      "\"properties\":\x7b\x7d\x7d\x7d\x7d")]

theorem result_nullTree :
    (Build.run (.ofString "s") (.ofString "o") nullTree).result = .error (.file .nullByte) := by
  rw [Build.run, readAll, nullTree, discover_treeOf_single]
  decide +kernel

theorem result_surrogateTree :
    (Build.run (.ofString "s") (.ofString "o") surrogateTree).result =
      .error (.file .unencodable) := by
  rw [Build.run, readAll, surrogateTree, discover_treeOf_single]
  decide +kernel

end CommandLine

end LexiconCompiler
