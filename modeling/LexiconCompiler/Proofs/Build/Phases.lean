import LexiconCompiler.Build
import LexiconCompiler.Proofs.Traversal

/-!
# Phases of a build

Every document is read, expanded and generated before anything is written. A build runs
each phase over all documents before it begins the next one, so it ends with a failure of
the earliest phase in which some document fails, and there with the first such document.
-/

namespace LexiconCompiler.Build

/-- What happens to a document before anything is written. -/
inductive Phase where
  | reading
  | expanding
  | generating
  deriving DecidableEq, Repr

/-- The place of a phase in a build. -/
def Phase.rank : Phase → Nat
  | reading => 0
  | expanding => 1
  | generating => 2

variable {tree : FileTree} {schemaRoot outputRoot path : Path}

/-- The document of a path fails in a phase, after it passed the phases before. -/
inductive Fails (tree : FileTree) (outputRoot path : Path) : Phase → BuildFailure → Prop where
  | reading {failure : BuildFailure} (unread : tree.load path = .error failure) :
      Fails tree outputRoot path .reading failure
  | expanding {document : Document} {error : Error} (read : tree.load path = .ok document)
      (unexpanded : expandDocument document = .error error) :
      Fails tree outputRoot path .expanding (.rejected error)
  | generating {document : Document} {expanded : Expanded} {error : Error}
      (read : tree.load path = .ok document) (opened : expandDocument document = .ok expanded)
      (ungenerated : generate outputRoot expanded = .error error) :
      Fails tree outputRoot path .generating (.rejected error)

/-- The document of a path passes all phases with a module to be written. -/
inductive Compiles (tree : FileTree) (outputRoot path : Path) : Output → Prop where
  | generated {document : Document} {expanded : Expanded} {output : Output}
      (read : tree.load path = .ok document) (opened : expandDocument document = .ok expanded)
      (generated : generate outputRoot expanded = .ok output) :
      Compiles tree outputRoot path output

/-- A failure of the earliest phase in which some document below the schema root fails,
and there of the first document that fails. -/
def FirstFailure (tree : FileTree) (schemaRoot outputRoot : Path) (phase : Phase)
    (failure : BuildFailure) : Prop :=
  ∃ before path after, tree.discover schemaRoot = before ++ path :: after ∧
    Fails tree outputRoot path phase failure ∧
    (∀ earlier ∈ before, ∀ other cause,
      Fails tree outputRoot earlier other cause → phase.rank < other.rank) ∧
    (∀ later ∈ after, ∀ other cause,
      Fails tree outputRoot later other cause → phase.rank ≤ other.rank)

/-! ## Documents -/

theorem Fails.not_reading {document : Document} {phase : Phase} {failure : BuildFailure}
    (fails : Fails tree outputRoot path phase failure) (read : tree.load path = .ok document) :
    Phase.reading.rank < phase.rank := by
  cases fails with
  | reading unread => cases read.symm.trans unread
  | expanding => decide
  | generating => decide

theorem Fails.not_expanding {document : Document} {expanded : Expanded} {phase : Phase}
    {failure : BuildFailure} (fails : Fails tree outputRoot path phase failure)
    (read : tree.load path = .ok document) (opened : expandDocument document = .ok expanded) :
    Phase.expanding.rank < phase.rank := by
  cases fails with
  | reading unread => cases read.symm.trans unread
  | expanding again unexpanded =>
      cases read.symm.trans again
      cases opened.symm.trans unexpanded
  | generating => decide

/-- The phases of a document up to the first that fails. -/
def compile (tree : FileTree) (outputRoot path : Path) :
    Except (Phase × BuildFailure) Output :=
  match tree.load path with
  | .error failure => .error (.reading, failure)
  | .ok document =>
      match expandDocument document with
      | .error error => .error (.expanding, .rejected error)
      | .ok expanded =>
          match generate outputRoot expanded with
          | .error error => .error (.generating, .rejected error)
          | .ok output => .ok output

theorem Fails.compile_eq {phase : Phase} {failure : BuildFailure}
    (fails : Fails tree outputRoot path phase failure) :
    compile tree outputRoot path = .error (phase, failure) := by
  cases fails with
  | reading unread => simp only [compile, unread]
  | expanding read unexpanded => simp only [compile, read, unexpanded]
  | generating read opened ungenerated => simp only [compile, read, opened, ungenerated]

theorem Compiles.compile_eq {output : Output}
    (compiles : Compiles tree outputRoot path output) :
    compile tree outputRoot path = .ok output := by
  cases compiles with
  | generated read opened generated => simp only [compile, read, opened, generated]

theorem Compiles.not_fails {output : Output} {phase : Phase} {failure : BuildFailure}
    (compiles : Compiles tree outputRoot path output) :
    ¬ Fails tree outputRoot path phase failure := by
  intro fails
  cases compiles.compile_eq.symm.trans fails.compile_eq

theorem Fails.unique {phase other : Phase} {failure cause : BuildFailure}
    (fails : Fails tree outputRoot path phase failure)
    (again : Fails tree outputRoot path other cause) : failure = cause := by
  cases fails.compile_eq.symm.trans again.compile_eq
  rfl

/-! ## Builds -/

theorem FirstFailure.of_reading (outputRoot : Path) {failure : BuildFailure}
    (failed : Traversal.FailsFirst tree.load (tree.discover schemaRoot) failure) :
    FirstFailure tree schemaRoot outputRoot .reading failure := by
  obtain ⟨before, path, after, split, passes, unread⟩ := failed
  refine ⟨before, path, after, split, .reading unread, ?_, ?_⟩
  · intro earlier member other cause fails
    obtain ⟨document, read⟩ := passes earlier member
    exact fails.not_reading read
  · intro later _ other cause _
    exact Nat.zero_le _

variable {documents : List Document} {expanded : List Expanded}

theorem FirstFailure.of_expanding (outputRoot : Path) {error : Error}
    (read : List.Forall₂ (fun path document => tree.load path = .ok document)
      (tree.discover schemaRoot) documents)
    (failed : Traversal.FailsFirst expandDocument documents error) :
    FirstFailure tree schemaRoot outputRoot .expanding (.rejected error) := by
  obtain ⟨first, document, last, rfl, passes, unexpanded⟩ := failed
  obtain ⟨before, path, after, split, early, here, late⟩ :=
    Traversal.exists_split_of_forall₂ read
  refine ⟨before, path, after, split, .expanding here unexpanded, ?_, ?_⟩
  · intro earlier member other cause fails
    obtain ⟨document, inside, read⟩ := Traversal.exists_of_mem_left early member
    obtain ⟨expanded, opened⟩ := passes document inside
    exact fails.not_expanding read opened
  · intro later member other cause fails
    obtain ⟨document, _, read⟩ := Traversal.exists_of_mem_left late member
    exact fails.not_reading read

theorem FirstFailure.of_generating {error : Error}
    (opened : List.Forall₂ (fun path one => ∃ document, tree.load path = .ok document ∧
      expandDocument document = .ok one) (tree.discover schemaRoot) expanded)
    (failed : Traversal.FailsFirst (generate outputRoot) expanded error) :
    FirstFailure tree schemaRoot outputRoot .generating (.rejected error) := by
  obtain ⟨first, one, last, rfl, passes, ungenerated⟩ := failed
  obtain ⟨before, path, after, split, early, ⟨document, read, here⟩, late⟩ :=
    Traversal.exists_split_of_forall₂ opened
  refine ⟨before, path, after, split, .generating read here ungenerated, ?_, ?_⟩
  · intro earlier member other cause fails
    obtain ⟨one, inside, document, read, here⟩ := Traversal.exists_of_mem_left early member
    obtain ⟨output, generated⟩ := passes one inside
    exact absurd fails (Compiles.generated read here generated).not_fails
  · intro later member other cause fails
    obtain ⟨one, _, document, read, here⟩ := Traversal.exists_of_mem_left late member
    exact fails.not_expanding read here

theorem FirstFailure.unique {phase other : Phase} {failure cause : BuildFailure}
    (first : FirstFailure tree schemaRoot outputRoot phase failure)
    (again : FirstFailure tree schemaRoot outputRoot other cause) : failure = cause := by
  obtain ⟨before, path, after, split, fails, early, late⟩ := first
  obtain ⟨front, place, back, resplit, refails, sooner, later⟩ := again
  rcases List.append_eq_append_iff.mp (split.symm.trans resplit) with
    ⟨between, rfl, rest⟩ | ⟨between, rfl, rest⟩
  · cases between with
    | nil =>
        cases rest
        exact fails.unique refails
    | cons head between =>
        cases rest
        have below := sooner path (by simp) phase failure fails
        have above := late place (by simp) other cause refails
        omega
  · cases between with
    | nil =>
        cases rest
        exact fails.unique refails
    | cons head between =>
        cases rest
        have below := early place (by simp) other cause refails
        have above := later path (by simp) phase failure fails
        omega

/-- A build writes the modules of all documents, or it leaves the files as they are and
ends with the first failure. -/
theorem run_cases (tree : FileTree) (schemaRoot outputRoot : Path) :
    (∃ outputs log, List.Forall₂ (Compiles tree outputRoot) (tree.discover schemaRoot) outputs ∧
      run schemaRoot outputRoot tree =
        { writeAll outputRoot outputs tree with
          log := log ++ (writeAll outputRoot outputs tree).log }) ∨
    (∃ phase failure log, FirstFailure tree schemaRoot outputRoot phase failure ∧
      run schemaRoot outputRoot tree = ⟨.error failure, log, tree⟩) := by
  rw [run, readAll]
  cases reading : (tree.discover schemaRoot).mapM tree.load with
  | error failure =>
      have first := FirstFailure.of_reading outputRoot
        (Traversal.mapM_eq_error_iff.mp reading)
      exact .inr ⟨_, failure, [], first, rfl⟩
  | ok documents =>
      have read := Traversal.mapM_eq_ok_iff.mp reading
      simp only [prepare]
      cases expanding : documents.mapM expandDocument with
      | error error =>
          have first := FirstFailure.of_expanding outputRoot read
            (Traversal.mapM_eq_error_iff.mp expanding)
          exact .inr ⟨_, _, _, first, rfl⟩
      | ok expanded =>
          have opened := Traversal.forall₂_comp read
            (Traversal.mapM_eq_ok_iff.mp expanding)
          dsimp only
          cases generating : expanded.mapM (generate outputRoot) with
          | error error =>
              have first := FirstFailure.of_generating opened
                (Traversal.mapM_eq_error_iff.mp generating)
              exact .inr ⟨_, _, _, first, rfl⟩
          | ok outputs =>
              have generated := Traversal.forall₂_comp opened
                (Traversal.mapM_eq_ok_iff.mp generating)
              refine .inl ⟨outputs, _, generated.imp ?_, rfl⟩
              intro path output ⟨one, ⟨document, read, here⟩, last⟩
              exact .generated read here last

/-- Not every document is compiled if one fails. -/
theorem FirstFailure.not_compiles {phase : Phase} {failure : BuildFailure} {outputs : List Output}
    (first : FirstFailure tree schemaRoot outputRoot phase failure) :
    ¬ List.Forall₂ (Compiles tree outputRoot) (tree.discover schemaRoot) outputs := by
  intro compiles
  obtain ⟨before, path, after, split, fails, _⟩ := first
  have member : path ∈ tree.discover schemaRoot := by
    rw [split]
    simp
  obtain ⟨output, _, compiled⟩ := Traversal.exists_of_mem_left compiles member
  exact compiled.not_fails fails

theorem FirstFailure.run_eq {phase : Phase} {failure : BuildFailure}
    (first : FirstFailure tree schemaRoot outputRoot phase failure) :
    ∃ log, run schemaRoot outputRoot tree = ⟨.error failure, log, tree⟩ := by
  rcases run_cases tree schemaRoot outputRoot with
    ⟨outputs, log, compiles, _⟩ | ⟨other, cause, log, again, built⟩
  · exact absurd compiles first.not_compiles
  · rw [first.unique again]
    exact ⟨log, built⟩

end LexiconCompiler.Build
