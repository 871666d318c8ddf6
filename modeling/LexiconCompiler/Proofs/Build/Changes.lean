import LexiconCompiler.Proofs.Build.Outcome
import LexiconCompiler.Proofs.FileTree.Additions
import LexiconCompiler.Proofs.Module.Path

/-!
# Changes by a build

A build that succeeds leaves the modules of all documents, and besides them only what
they need: the directories on the way to them, and files that make directories packages.
Modules whose paths lead to one place are written over each other, so the last one stands
there.
-/

namespace LexiconCompiler.Build

open FileTree

variable {tree before middle after : FileTree} {schemaRoot outputRoot : Path}
  {output : Output} {outputs : List Output} {location : Location} {written : List Path}

/-- The content of the file of a module. -/
def Output.content (output : Output) : List UInt8 :=
  Encoding.Utf8.encode output.source.toList

theorem Output.content_inj {first second : Output} :
    first.content = second.content ↔ first.source = second.source := by
  rw [content, content, Encoding.Utf8.encode_inj, String.toList_inj]

/-- A location at which a directory is made for some module. -/
def MakesDirectory (tree : FileTree) (outputs : List Output) (location : Location) : Prop :=
  ∃ output ∈ outputs, tree.OnWay output.path location

/-- A location at which a mark makes a directory of some module a package. -/
def MarksPackage (tree : FileTree) (outputRoot : Path) (outputs : List Output)
    (location : Location) : Prop :=
  ∃ output ∈ outputs, ∃ package, tree.IsPackage outputRoot output.path package ∧
    location = package ++ [packageMark]

theorem MakesDirectory.mono {others : List Output} (among : outputs ⊆ others)
    (makes : MakesDirectory tree outputs location) : MakesDirectory tree others location := by
  obtain ⟨output, member, onWay⟩ := makes
  exact ⟨output, among member, onWay⟩

theorem MarksPackage.mono {others : List Output} (among : outputs ⊆ others)
    (marks : MarksPackage tree outputRoot outputs location) :
    MarksPackage tree outputRoot others location := by
  obtain ⟨output, member, package⟩ := marks
  exact ⟨output, among member, package⟩

/-- The last of some modules whose paths denote a location. -/
def LastAt (tree : FileTree) (outputs : List Output) (location : Location)
    (last : Output) : Prop :=
  ∃ earlier later, outputs = earlier ++ last :: later ∧ tree.resolve last.path = location ∧
    ∀ other ∈ later, tree.resolve other.path ≠ location

/-- What writing modules below an output root leaves of a tree: the modules, and besides
them only directories on the way to them and marks of packages are new. Locations are
those that the paths denote in the tree before. -/
structure Leaves (outputRoot : Path) (outputs : List Output) (before after : FileTree) : Prop
    extends Adds (outputs.map fun output => before.resolve output.path)
      (MakesDirectory before outputs) (MarksPackage before outputRoot outputs) before after where
  /-- The path of a module leads to the location that it denotes. -/
  leads : ∀ output ∈ outputs, after.locate output.path = .ok (before.resolve output.path)
  /-- The last module whose path denotes a location stands there. -/
  stands : ∀ output ∈ outputs, ∃ last,
    LastAt before outputs (before.resolve output.path) last ∧
      after.get? (before.resolve output.path) = some (.file last.content)
  /-- Every directory from the output root down to a module has the mark of a package. -/
  packaged : ∀ output ∈ outputs, ∀ package, before.IsPackage outputRoot output.path package →
    after.get? (package ++ [packageMark]) ≠ none

theorem LastAt.cons {last : Output} (among : LastAt tree outputs location last)
    (output : Output) : LastAt tree (output :: outputs) location last := by
  obtain ⟨earlier, later, rfl, here, others⟩ := among
  exact ⟨output :: earlier, later, rfl, here, others⟩

namespace Leaves

theorem nil (tree : FileTree) : Leaves outputRoot [] tree tree where
  toAdds := .refl tree
  leads := by simp
  stands := by simp
  packaged := by simp

/-- A module that is written before others stands in the end, or one of the others does
that is written to its place. -/
theorem stands_head {way mark : Location → Prop}
    (stands : middle.get? (before.resolve output.path) = some (.file output.content))
    (adds : Adds (outputs.map fun other => before.resolve other.path) way mark middle after)
    (later : ∀ other ∈ outputs, ∃ last, LastAt before outputs (before.resolve other.path) last ∧
      after.get? (before.resolve other.path) = some (.file last.content)) :
    ∃ last, LastAt before (output :: outputs) (before.resolve output.path) last ∧
      after.get? (before.resolve output.path) = some (.file last.content) := by
  by_cases again : before.resolve output.path ∈
      outputs.map fun other => before.resolve other.path
  · obtain ⟨other, member, same⟩ := List.mem_map.mp again
    obtain ⟨last, among, content⟩ := later other member
    rw [same] at among content
    exact ⟨last, among.cons output, content⟩
  · have others : ∀ other ∈ outputs,
        before.resolve other.path ≠ before.resolve output.path := by
      intro other member same
      exact again (List.mem_map.mpr ⟨other, member, same⟩)
    exact ⟨output, ⟨[], outputs, rfl, rfl, others⟩, adds.files _ again _ stands⟩

/-- Paths denote the same locations in a tree with additions, so what is left after the
first module and then after the others is left after all of them. -/
theorem cons
    (early : Adds [before.resolve output.path] (MakesDirectory before [output])
      (MarksPackage before outputRoot [output]) before middle)
    (leads : middle.locate output.path = .ok (before.resolve output.path))
    (stands : middle.get? (before.resolve output.path) = some (.file output.content))
    (packaged : ∀ package, before.IsPackage outputRoot output.path package →
      middle.get? (package ++ [packageMark]) ≠ none)
    (late : Leaves outputRoot outputs middle after) :
    Leaves outputRoot (output :: outputs) before after := by
  have ways : MakesDirectory middle = MakesDirectory before := by
    funext outputs location
    simp only [MakesDirectory, early.onWay]
  have marks : MarksPackage middle = MarksPackage before := by
    funext outputRoot outputs location
    simp only [MarksPackage, early.isPackage]
  have lasts : LastAt middle = LastAt before := by
    funext outputs location last
    simp only [LastAt, early.resolve]
  obtain ⟨adds, follows, last, marked⟩ := late
  simp only [ways, marks, lasts, early.resolve, early.isPackage] at adds follows last marked
  refine ⟨?_, ?_, ?_, ?_⟩
  · have head : [output] ⊆ output :: outputs := by simp
    have tail : outputs ⊆ output :: outputs := List.subset_cons_self _ _
    exact (early.mono (fun _ => .mono head) fun _ => .mono head).trans
      (adds.mono (fun _ => .mono tail) fun _ => .mono tail)
  · exact List.forall_mem_cons.mpr ⟨adds.locate leads, follows⟩
  · refine List.forall_mem_cons.mpr ⟨stands_head stands adds last, ?_⟩
    intro other member
    obtain ⟨final, among, content⟩ := last other member
    exact ⟨final, among.cons output, content⟩
  · refine List.forall_mem_cons.mpr ⟨?_, marked⟩
    intro package inside absent
    exact packaged package inside (adds.stays _ absent)

end Leaves

/-! ## Builds -/

/-- Modules that are all written are left, in their order. -/
theorem leaves_of_writeAll (named : ∀ output ∈ outputs, NamesFile output.path)
    (finished : (writeAll outputRoot outputs tree).result = .ok written) :
    written = outputs.map Output.path ∧
      Leaves outputRoot outputs tree (writeAll outputRoot outputs tree).tree := by
  induction outputs generalizing tree written with
  | nil =>
      cases finished
      exact ⟨rfl, .nil tree⟩
  | cons output rest ih =>
      rw [List.forall_mem_cons] at named
      rw [writeAll] at finished ⊢
      cases ran : writeModule outputRoot output.path output.source tree with
      | mk result middle =>
          rw [ran] at finished
          cases result with
          | error error => cases finished
          | ok done =>
              obtain ⟨others, complete, rfl⟩ := Traversal.map_eq_ok_iff.mp finished
              obtain ⟨rfl, late⟩ := ih named.2 complete
              have ways : ∀ location, tree.OnWay output.path location →
                  MakesDirectory tree [output] location :=
                fun location onWay => ⟨output, List.mem_singleton_self _, onWay⟩
              have marks : ∀ package, tree.IsPackage outputRoot output.path package →
                  MarksPackage tree outputRoot [output] (package ++ [packageMark]) :=
                fun package inside => ⟨output, List.mem_singleton_self _, package, inside, rfl⟩
              obtain ⟨early, stands, leads, packaged⟩ :=
                adds_of_writeModule named.1 ways marks ran
              exact ⟨rfl, .cons early leads stands packaged late⟩

theorem path_of_generate {document : Expanded}
    (generated : generate outputRoot document = .ok output) :
    output.path = Module.path document.id outputRoot := by
  rw [generate, Traversal.bind_eq_ok_iff] at generated
  obtain ⟨source, _, generated⟩ := generated
  cases generated
  rfl

/-- The module of a document lies where some id leads. -/
theorem Compiles.exists_id {path : Path} (compiles : Compiles tree outputRoot path output) :
    ∃ id, output.path = Module.path id outputRoot := by
  cases compiles with
  | generated read opened generated => exact ⟨_, path_of_generate generated⟩

theorem namesFile_of_compiles {path : Path} (compiles : Compiles tree outputRoot path output) :
    NamesFile output.path := by
  obtain ⟨id, same⟩ := compiles.exists_id
  rw [same]
  exact Module.namesFile_path id outputRoot

/-- A build that succeeds wrote the modules of all documents, in their order. -/
theorem writeAll_of_run (built : (run schemaRoot outputRoot tree).result = .ok written) :
    ∃ outputs, List.Forall₂ (Compiles tree outputRoot) (tree.discover schemaRoot) outputs ∧
      (∀ output ∈ outputs, NamesFile output.path) ∧
      (writeAll outputRoot outputs tree).result = .ok written ∧
      (run schemaRoot outputRoot tree).tree = (writeAll outputRoot outputs tree).tree := by
  rcases run_cases tree schemaRoot outputRoot with
    ⟨outputs, log, compiles, ran⟩ | ⟨phase, failure, log, first, ran⟩
  · rw [ran] at built ⊢
    refine ⟨outputs, compiles, ?_, built, rfl⟩
    intro output member
    obtain ⟨path, _, compiled⟩ := Traversal.exists_of_mem_right compiles member
    exact namesFile_of_compiles compiled
  · rw [ran] at built
    cases built

/-- A build that succeeds leaves the modules of all documents. It returns their paths, one
for each document in their order, and changes nothing but what the modules need. -/
theorem run_leaves (built : (run schemaRoot outputRoot tree).result = .ok written) :
    ∃ outputs, List.Forall₂ (Compiles tree outputRoot) (tree.discover schemaRoot) outputs ∧
      written = outputs.map Output.path ∧
      Leaves outputRoot outputs tree (run schemaRoot outputRoot tree).tree := by
  obtain ⟨outputs, compiles, named, finished, same⟩ := writeAll_of_run built
  rw [same]
  exact ⟨outputs, compiles, leaves_of_writeAll named finished⟩

/-! ## Modules that meet -/

/-- Two documents whose modules have the same path. -/
def meetingTree : FileTree :=
  CommandLine.treeOf [
    ("s/a.json", "\x7b\"lexicon\":1,\"id\":\"x.fooBar\",\"defs\":" ++
      "\x7b\"main\":\x7b\"type\":\"object\",\"properties\":\x7b\x7d\x7d\x7d\x7d"),
    ("s/b.json", "\x7b\"lexicon\":1,\"id\":\"x.foo_bar\",\"defs\":" ++
      "\x7b\"main\":\x7b\"type\":\"object\",\"properties\":" ++
      "\x7b\"n\":\x7b\"type\":\"integer\"\x7d\x7d\x7d\x7d\x7d")]

theorem discover_meetingTree :
    meetingTree.discover (.ofString "s") = [.ofString "s/a.json", .ofString "s/b.json"] :=
  CommandLine.discover_treeOf_pair _ _

theorem id_of_mem_meetingTree {path : Path}
    (member : path ∈ meetingTree.discover (.ofString "s")) :
    (meetingTree.load path).map Document.id = .ok "x.fooBar" ∨
      (meetingTree.load path).map Document.id = .ok "x.foo_bar" := by
  have all : ∀ path ∈ [Path.ofString "s/a.json", Path.ofString "s/b.json"],
      (meetingTree.load path).map Document.id = .ok "x.fooBar" ∨
        (meetingTree.load path).map Document.id = .ok "x.foo_bar" := by
    decide +kernel
  rw [discover_meetingTree] at member
  exact all path member

/-- The two modules differ in their sources. -/
theorem compile_meetingTree : compile meetingTree (.ofString "o") (.ofString "s/a.json") ≠
    compile meetingTree (.ofString "o") (.ofString "s/b.json") := by
  decide +kernel

theorem run_meetingTree :
    (run (.ofString "s") (.ofString "o") meetingTree).result =
      .ok [.ofString "o/x/foo_bar.py", .ofString "o/x/foo_bar.py"] := by
  rw [run, readAll, discover_meetingTree]
  decide +kernel

theorem run_leaves_meeting_modules :
    (run (.ofString "s") (.ofString "o") meetingTree).result =
        .ok [.ofString "o/x/foo_bar.py", .ofString "o/x/foo_bar.py"] ∧
      ∃ outputs,
        List.Forall₂ (Compiles meetingTree (.ofString "o"))
          [.ofString "s/a.json", .ofString "s/b.json"] outputs ∧
        [.ofString "o/x/foo_bar.py", .ofString "o/x/foo_bar.py"] = outputs.map Output.path ∧
        Leaves (.ofString "o") outputs meetingTree
          (run (.ofString "s") (.ofString "o") meetingTree).tree := by
  have leaves := run_leaves run_meetingTree
  rw [discover_meetingTree] at leaves
  exact ⟨run_meetingTree, leaves⟩

end LexiconCompiler.Build
