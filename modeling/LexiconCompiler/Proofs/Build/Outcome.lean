import LexiconCompiler.CommandLine
import LexiconCompiler.Proofs.Build.Phases
import LexiconCompiler.Proofs.FileTree.Growth

/-!
# Outcome of a build

A build either fails before anything is written, and then the files are as they were, or
every document was compiled. If also nothing fails while files are written, the module of
each document stands where its path leads.
-/

namespace LexiconCompiler

namespace Build

/-- The modules stand in a tree where their paths lead, each unless the path of a later
one leads to the same place. -/
inductive Standing (tree : FileTree) : List Output → Prop where
  | nil : Standing tree []
  | stands {output : Output} {later : List Output}
      (here : tree.find? output.path = some (.file (Encoding.Utf8.encode output.source.toList)))
      (rest : Standing tree later) : Standing tree (output :: later)
  | replaced {output other : Output} {later : List Output} {location : Location}
      (leads : tree.locate output.path = .ok location) (member : other ∈ later)
      (same : tree.locate other.path = .ok location)
      (rest : Standing tree later) : Standing tree (output :: later)

/-- Every path of modules that stand leads to the source of one of them. -/
theorem Standing.exists_source {tree : FileTree} {outputs : List Output}
    (standing : Standing tree outputs) {output : Output} (member : output ∈ outputs) :
    ∃ last ∈ outputs, tree.locate last.path = tree.locate output.path ∧
      tree.find? output.path = some (.file (Encoding.Utf8.encode last.source.toList)) := by
  induction standing generalizing output with
  | nil => cases member
  | stands here rest ih =>
      cases member with
      | head => exact ⟨_, List.mem_cons_self, rfl, here⟩
      | tail _ inside =>
          obtain ⟨last, found, same, stands⟩ := ih inside
          exact ⟨last, List.mem_cons_of_mem _ found, same, stands⟩
  | @replaced first other later location leads among same rest ih =>
      cases member with
      | head =>
          obtain ⟨last, found, again, stands⟩ := ih among
          rw [same] at again
          refine ⟨last, List.mem_cons_of_mem _ found, again.trans leads.symm, ?_⟩
          rw [FileTree.find?, same] at stands
          rw [FileTree.find?, leads]
          exact stands
      | tail _ inside =>
          obtain ⟨last, found, same, stands⟩ := ih inside
          exact ⟨last, List.mem_cons_of_mem _ found, same, stands⟩

/-- Modules that are all written stand in the tree that is left. The locations that their
paths lead to are the only ones at which a file is rewritten. -/
theorem standing_of_writeAll {outputRoot : Path} {outputs : List Output} {tree : FileTree}
    {written : List Path} (finished : (writeAll outputRoot outputs tree).result = .ok written) :
    ∃ locations,
      List.Forall₂ (fun output location =>
        (writeAll outputRoot outputs tree).tree.locate output.path = .ok location)
        outputs locations ∧
      tree.Grows locations (writeAll outputRoot outputs tree).tree ∧
      Standing (writeAll outputRoot outputs tree).tree outputs := by
  induction outputs generalizing tree written with
  | nil => exact ⟨[], .nil, .refl tree, .nil⟩
  | cons output rest ih =>
      rw [writeAll] at finished ⊢
      cases ran : FileTree.writeModule outputRoot output.path output.source tree with
      | mk result after =>
          rw [ran] at finished
          cases result with
          | error error => cases finished
          | ok done =>
              obtain ⟨location, leads, stands, rewrites⟩ := FileTree.writeModule_eq_ok ran
              obtain ⟨others, complete, _⟩ := Traversal.map_eq_ok_iff.mp finished
              obtain ⟨locations, arrive, grows, standing⟩ := ih complete
              have arrives := grows.locate leads
              refine ⟨location :: locations, .cons arrives arrive, rewrites.trans grows, ?_⟩
              by_cases again : location ∈ locations
              · obtain ⟨other, member, same⟩ := Traversal.exists_of_mem_right arrive again
                exact .replaced arrives member same standing
              · refine .stands ?_ standing
                rw [FileTree.find?, arrives]
                exact grows.files location again _ stands

end Build

namespace CommandLine

/-- Arguments that ask for a build from one directory into another. -/
def Asks (defaults : Defaults) (arguments : List String) (schemaRoot outputRoot : Path)
    (verbose : Bool) : Prop :=
  ∃ asked, interpret arguments = .ok asked ∧
    asked.schemaDirectory.getD defaults.schemaDirectory = schemaRoot ∧
    asked.outputDirectory.getD defaults.outputDirectory = outputRoot ∧
    asked.verbose = verbose

/-- How a run ends whose arguments ask for a build. -/
def finish (verbose : Bool) (outputRoot : Path) (outcome : Build.Outcome) : Ending :=
  match outcome.result with
  | .ok written =>
      .finished 0 (Log.text verbose (outcome.log ++ [finishedRecord written outputRoot]))
  | .error (.rejected error) =>
      .finished 1 (Log.text verbose (outcome.log ++ [rejectedRecord error]))
  | .error failure => .failed failure

theorem run_of_asks {defaults : Defaults} {arguments : List String}
    {schemaRoot outputRoot : Path} {verbose : Bool} {tree : FileTree}
    (asks : Asks defaults arguments schemaRoot outputRoot verbose)
    (isDirectory : tree.isDirectory schemaRoot = true) :
    run defaults arguments tree =
      (finish verbose outputRoot (Build.run schemaRoot outputRoot tree),
        (Build.run schemaRoot outputRoot tree).tree) := by
  obtain ⟨asked, interpreted, rfl, rfl, rfl⟩ := asks
  have accepted : read defaults tree arguments = .ok asked := by
    rw [read, Traversal.bind_eq_ok_iff]
    exact ⟨asked, interpreted, if_pos isDirectory⟩
  rw [run, accepted]
  dsimp only
  generalize Build.run _ _ tree = outcome
  obtain ⟨result, log, after⟩ := outcome
  cases result with
  | ok written => rfl
  | error failure => cases failure <;> rfl

theorem result_of_finish {verbose : Bool} {outputRoot : Path} {outcome : Build.Outcome}
    {log : String} (finished : finish verbose outputRoot outcome = .finished 0 log) :
    ∃ written, outcome.result = .ok written := by
  rw [finish] at finished
  split at finished
  · rename_i written result
    exact ⟨written, result⟩
  · cases finished
  · cases finished

open Build

/-- A build in which some document fails ends with the first failure and leaves the files
as they are. The program then ends with status 1 if a document was rejected. It ends with
status 0 only if every document was compiled and its module stands. -/
theorem run_reports_first_failure (tree : FileTree) (schemaRoot outputRoot : Path) :
    ((∃ path ∈ tree.discover schemaRoot, ∃ phase failure,
        Fails tree outputRoot path phase failure) →
      ∃ phase failure, FirstFailure tree schemaRoot outputRoot phase failure ∧
        (Build.run schemaRoot outputRoot tree).result = .error failure ∧
        (Build.run schemaRoot outputRoot tree).tree = tree) ∧
    ∀ defaults arguments verbose, Asks defaults arguments schemaRoot outputRoot verbose →
      tree.isDirectory schemaRoot = true →
      (∀ phase error, FirstFailure tree schemaRoot outputRoot phase (.rejected error) →
        run defaults arguments tree =
          (.finished 1 (Log.text verbose
            ((Build.run schemaRoot outputRoot tree).log ++ [rejectedRecord error])), tree)) ∧
      (∀ log, (run defaults arguments tree).1 = .finished 0 log →
        ∃ outputs,
          List.Forall₂ (Compiles tree outputRoot) (tree.discover schemaRoot) outputs ∧
          Standing (run defaults arguments tree).2 outputs) := by
  rcases run_cases tree schemaRoot outputRoot with
    ⟨outputs, log, compiles, built⟩ | ⟨phase, failure, log, first, built⟩
  · constructor
    · intro ⟨path, member, phase, failure, fails⟩
      obtain ⟨output, _, compiled⟩ := Traversal.exists_of_mem_left compiles member
      exact absurd fails compiled.not_fails
    · intro defaults arguments verbose asks isDirectory
      constructor
      · intro phase error first
        exact absurd compiles first.not_compiles
      · intro shown ended
        rw [run_of_asks asks isDirectory, built] at ended ⊢
        obtain ⟨written, result⟩ := result_of_finish ended
        obtain ⟨_, _, _, standing⟩ := standing_of_writeAll result
        exact ⟨outputs, compiles, standing⟩
  · constructor
    · intro _
      refine ⟨phase, failure, first, ?_, ?_⟩ <;> rw [built]
    · intro defaults arguments verbose asks isDirectory
      constructor
      · intro other error again
        cases first.unique again
        rw [run_of_asks asks isDirectory, built]
        rfl
      · intro shown ended
        rw [run_of_asks asks isDirectory, built] at ended
        cases failure <;> cases ended

/-! ## Two trees -/

/-- A tree with documents, each given by its path and its text. -/
def treeOf (documents : List (String × String)) : FileTree :=
  documents.foldl (fun tree document =>
    (FileTree.writeWithParents (.ofString document.1)
      (Encoding.Utf8.encode document.2.toList) tree).2) (.empty .usual)

/-- What is discovered does not depend on the texts of documents. -/
theorem discover_treeOf_single (text : String) :
    (treeOf [("s/a.json", text)]).discover (.ofString "s") = [.ofString "s/a.json"] := by
  simp only [treeOf, List.foldl_cons, List.foldl_nil]
  exact FileTree.discover_of_pairwise (by rfl) (by rfl)
    (show _ = [["a.json"]] by rfl) (by decide)

theorem discover_treeOf_pair (first second : String) :
    (treeOf [("s/a.json", first), ("s/b.json", second)]).discover (.ofString "s") =
      [.ofString "s/a.json", .ofString "s/b.json"] := by
  simp only [treeOf, List.foldl_cons, List.foldl_nil]
  exact FileTree.discover_of_pairwise (by rfl) (by rfl)
    (show _ = [["a.json"], ["b.json"]] by rfl) (by decide)

/-- A document that goes through all phases. -/
def soundTree : FileTree :=
  treeOf [("s/a.json", "\x7b\"lexicon\":1,\"id\":\"a.b\",\"defs\":" ++
    "\x7b\"c\":\x7b\"type\":\"object\",\"properties\":\x7b\x7d\x7d\x7d\x7d")]

/-- A document that cannot be expanded before one that cannot be read. -/
def faultyTree : FileTree :=
  treeOf [("s/a.json", "\x7b\"lexicon\":1,\"id\":\"a.b\",\"defs\":" ++
    "\x7b\"c\":\x7b\"type\":\"token\"\x7d\x7d\x7d"), ("s/b.json", "1")]

/-- What is wrong with the document that cannot be read. -/
def unreadError : Error :=
  DocumentProblem.error .notObject (some "s/b.json")

theorem discover_faultyTree :
    faultyTree.discover (.ofString "s") = [.ofString "s/a.json", .ofString "s/b.json"] :=
  discover_treeOf_pair _ _

theorem fails_faultyTree :
    Fails faultyTree (.ofString "o") (.ofString "s/b.json") .reading (.rejected unreadError) :=
  .reading (by rfl)

theorem firstFailure_faultyTree :
    FirstFailure faultyTree (.ofString "s") (.ofString "o") .reading (.rejected unreadError) := by
  have succeeds : (faultyTree.load (.ofString "s/a.json")).isOk = true := by decide +kernel
  refine ⟨[.ofString "s/a.json"], .ofString "s/b.json", [], discover_faultyTree,
    fails_faultyTree, ?_, by simp⟩
  intro earlier member other cause fails
  rw [List.mem_singleton] at member
  subst member
  cases read : faultyTree.load (.ofString "s/a.json") with
  | error failure =>
      rw [read] at succeeds
      cases succeeds
  | ok document => exact fails.not_reading read

/-- Arguments that name both directories. -/
theorem asks_both (defaults : Defaults) :
    Asks defaults ["s", "o"] (.ofString "s") (.ofString "o") false :=
  ⟨⟨some (.ofString "s"), some (.ofString "o"), false⟩, by decide, rfl, rfl, rfl⟩

theorem run_reports_unread_document :
    (∃ phase failure, FirstFailure faultyTree (.ofString "s") (.ofString "o") phase failure ∧
      (Build.run (.ofString "s") (.ofString "o") faultyTree).result = .error failure ∧
      (Build.run (.ofString "s") (.ofString "o") faultyTree).tree = faultyTree) ∧
    run ⟨.ofString "lexicons", .ofString "generated"⟩ ["s", "o"] faultyTree =
      (.finished 1 (Log.text false
        ((Build.run (.ofString "s") (.ofString "o") faultyTree).log ++
          [rejectedRecord unreadError])), faultyTree) ∧
    ∃ outputs,
      List.Forall₂ (Compiles soundTree (.ofString "o")) (soundTree.discover (.ofString "s"))
        outputs ∧
      Standing (run ⟨.ofString "lexicons", .ofString "generated"⟩ ["s", "o"] soundTree).2
        outputs := by
  have finished :
      (run ⟨.ofString "lexicons", .ofString "generated"⟩ ["s", "o"] soundTree).1 =
        .finished 0 ("INFO lexgen.codegen: Loaded 1 lexicons from 1 documents\n" ++
          "INFO lexgen.codegen: Generated o/a/b.py\n" ++
          "INFO lexgen: Generated 1 modules in o\n") := by
    decide +kernel
  obtain ⟨fails, ends⟩ :=
    run_reports_first_failure faultyTree (.ofString "s") (.ofString "o")
  obtain ⟨_, writes⟩ := run_reports_first_failure soundTree (.ofString "s") (.ofString "o")
  have member : Path.ofString "s/b.json" ∈ faultyTree.discover (.ofString "s") := by
    rw [discover_faultyTree]
    exact List.mem_cons_of_mem _ List.mem_cons_self
  refine ⟨fails ⟨_, member, _, _, fails_faultyTree⟩, ?_, ?_⟩
  · exact (ends _ _ _ (asks_both _) (by rfl)).1 _ _ firstFailure_faultyTree
  · exact (writes _ _ _ (asks_both _) (by rfl)).2 _ finished

end CommandLine

end LexiconCompiler
