import LexiconCompiler.Proofs.Module.Drafting
import LexiconCompiler.Proofs.Source.Skeleton
import LexiconCompiler.Proofs.Text.Parts

/-!
# The skeleton of a generated module

Ids, descriptions, encodings, the names of errors and the values of fields are free text.
The skeleton of a generated module shows that none of it becomes code: the lines that are
left are told by the names and types of the definitions alone.
-/

namespace LexiconCompiler

open Source Traversal

namespace Definition

/-- The constants of a definition, if it is a method. -/
def constants? (definition : Definition) : Option Constants :=
  definition.kind.method?.map definition.constantsOf

/-- The description of an object does not end in a quote, apart from blanks. -/
def EndsPlain (definition : Definition) : Prop :=
  ∀ schema, definition.kind = .object schema →
    ∀ description, definition.description = some description →
      (Text.trim description.toList).getLast? ≠ some '"'

theorem constants?_of_constants {definition : Definition} {constants : Option Constants}
    (made : definition.constants = .ok constants) : definition.constants? = constants := by
  cases constants with
  | some constants =>
      obtain ⟨method, found, rfl, _⟩ := constants_eq_ok_some_iff.mp made
      rw [constants?, found]
      rfl
  | none =>
      rw [Definition.constants] at made
      split at made
      · rename_i none
        rw [constants?, none]
        rfl
      · obtain ⟨stem, _, equal⟩ := bind_eq_ok_iff.mp made
        cases equal

theorem reduceOption_constants {definitions : List Definition}
    {constants : List (Option Constants)}
    (made : definitions.mapM Definition.constants = .ok constants) :
    constants.reduceOption = definitions.filterMap constants? := by
  have each := mapM_eq_ok_iff.mp made
  clear made
  induction each with
  | nil => rfl
  | @cons definition constants _ _ here there ih =>
      rw [List.filterMap_cons, constants?_of_constants here]
      cases constants with
      | none => exact ih
      | some constants => exact congrArg (constants :: ·) ih

theorem isDeclarable_of_mem_constants {definitions : List Definition}
    {constants : List (Option Constants)}
    (made : definitions.mapM Definition.constants = .ok constants) {one : Constants}
    (member : one ∈ constants.reduceOption) : Name.isDeclarable one.stem = true := by
  have inside : some one ∈ constants := List.reduceOption_mem_iff.mp member
  obtain ⟨definition, _, found⟩ := exists_of_mem_right (mapM_eq_ok_iff.mp made) inside
  obtain ⟨_, _, _, declarable⟩ := constants_eq_ok_some_iff.mp found
  exact declarable

/-- The structs of a method have descriptions that end in a period. -/
theorem description_of_mem_plans {id : String} {method : Method} {plan : Struct.Plan}
    (member : plan ∈ method.plans id) : ∃ front, plan.description = some (front ++ ".") := by
  have closing : ")." = ")" ++ "." := by decide
  simp only [Method.plans, List.mem_append, List.mem_map] at member
  rcases member with (⟨parameters, _, rfl⟩ | ⟨body, _, rfl⟩) | ⟨body, _, rfl⟩
  · exact ⟨_, rfl⟩
  · refine ⟨"Input body for " ++ id ++ " (" ++ body.encoding ++ ")", ?_⟩
    rw [String.append_assoc, ← closing]
    rfl
  · refine ⟨"Output body for " ++ id ++ " (" ++ body.encoding ++ ")", ?_⟩
    rw [String.append_assoc, ← closing]
    rfl

theorem getLast?_trim_of_plans {definition : Definition} (plain : definition.EndsPlain)
    {plans : List Struct.Plan} (planned : definition.plans? = some plans) {plan : Struct.Plan}
    (member : plan ∈ plans) {description : String}
    (described : plan.description = some description) :
    (Text.trim description.toList).getLast? ≠ some '"' := by
  have ofMethod : ∀ method : Method, plan ∈ method.plans definition.id →
      (Text.trim description.toList).getLast? ≠ some '"' := by
    intro method inside
    obtain ⟨front, shown⟩ := description_of_mem_plans inside
    cases described.symm.trans shown
    have last := Text.getLast?_trim_concat (c := '.') (by decide) front.toList
    rw [String.toList_append]
    change (Text.trim (front.toList ++ ['.'])).getLast? ≠ some '"'
    rw [last]
    decide
  rw [plans?] at planned
  split at planned
  · rename_i schema kind
    cases planned
    cases List.mem_singleton.mp member
    exact plain schema kind description described
  · cases planned
    exact ofMethod _ member
  · cases planned
    exact ofMethod _ member
  · cases planned

theorem declared_of_mem_structs {definition : Definition} {structs : List Struct}
    (made : definition.structs = .ok structs) {struct : Struct} (member : struct ∈ structs) :
    Name.isDeclarable struct.name = true ∧ ∀ field ∈ struct.fields, Declared field := by
  obtain ⟨_, _, plan, _, found⟩ := plan_of_mem_structs made member
  obtain ⟨named, nameEqual, _, fieldsMade⟩ := Struct.ofPlan_eq_ok_iff.mp found
  refine ⟨nameEqual ▸ named, ?_⟩
  intro field among
  have declarable := Field.isDeclarable_of_mem_ofSchema fieldsMade among
  obtain ⟨_, equal⟩ := Field.ofSchema_eq_ok_iff.mp fieldsMade
  rw [equal, Field.mem_requiredFirst, List.mem_map] at among
  obtain ⟨entry, _, rfl⟩ := among
  exact ⟨declarable, entry.2.tag, entry.2.mem_typeNames⟩

theorem declaredStruct_of_mem_structs {definition : Definition} (plain : definition.EndsPlain)
    {structs : List Struct} (made : definition.structs = .ok structs) {struct : Struct}
    (member : struct ∈ structs) : DeclaredStruct struct := by
  obtain ⟨plans, planned, plan, inside, found⟩ := plan_of_mem_structs made member
  obtain ⟨_, _, descriptionEqual, _⟩ := Struct.ofPlan_eq_ok_iff.mp found
  obtain ⟨named, fields⟩ := declared_of_mem_structs made member
  refine ⟨named, fields, ?_⟩
  intro description described
  rw [descriptionEqual] at described
  exact getLast?_trim_of_plans plain planned inside described

end Definition

/-- Of the source text of a module only the code is left that its definitions tell. -/
theorem Module.skeleton_source {sourceId source : String} {definitions : List Definition}
    (noFeed : '\n' ∉ sourceId.toList) (noReturn : '\r' ∉ sourceId.toList)
    (plain : ∀ definition ∈ definitions, definition.EndsPlain)
    (generated : Module.source sourceId definitions = .ok source) :
    ∃ structs, definitions.mapM Definition.structs = .ok structs ∧
      skeleton source = some (codeLines structs.flatten
        (definitions.filterMap Definition.constants?)) := by
  rw [Module.source, bind_eq_ok_iff] at generated
  obtain ⟨made, holds, equal⟩ := generated
  have shown : source = made.text := (Except.ok.inj equal).symm
  obtain ⟨rfl, structs, constants, structsMade, constantsMade, holds⟩ :=
    holds_of_ofDefinitions holds
  have unbroken : Reading.Unbroken made.sourceId.toList := by
    intro c member
    have feed : c ≠ '\n' := fun same => noFeed (same ▸ member)
    have carriage : c ≠ '\r' := fun same => noReturn (same ▸ member)
    simp [endsLine, feed, carriage]
  have declared : ∀ struct ∈ made.structs, DeclaredStruct struct := by
    intro struct member
    obtain ⟨definition, known, _, own, among⟩ := holds.definition_of_mem structsMade member
    exact Definition.declaredStruct_of_mem_structs (plain definition known) own among
  have stems : ∀ constants ∈ made.methods, Name.isDeclarable constants.stem = true := by
    intro one member
    rw [holds.methods_eq] at member
    exact Definition.isDeclarable_of_mem_constants constantsMade member
  have drafted := (leaves_draftText unbroken declared stems).skeletonOf
  have laidOut := skeletonOf_tidyOf drafted
  refine ⟨structs, structsMade, ?_⟩
  rw [holds.structs_eq, holds.methods_eq, Definition.reduceOption_constants constantsMade]
    at laidOut
  rw [shown, skeleton, Module.text, String.toList_ofList, laidOut]
  simp [Function.comp_def]

/-- A method whose texts would end the comment and the string that they stand in. -/
def quotedMethod : Definition where
  id := "x.ask"
  kind := .query {
    parameters := none
    input := none
    output := some {
      encoding := "\"\nimport os"
      schema := { properties := .ofList [("count", .integer)], required := ["count"] } }
    errors := [⟨"\" + x", none⟩] }
  revision := none
  description := some "\rimport os"

/-- An object whose texts would end the docstring and the comment that they stand in. -/
def quotedObject : Definition where
  id := "x.note"
  kind := .object {
    properties := .ofList [("text", .string (some ["\nimport os"]))]
    required := [] }
  revision := none
  description := some "\"\"\"\nimport os # \\"

/-- The structs of the method and the object. -/
def quotedStructs : List Struct :=
  [{ name := "AskOutput"
     fields := [⟨"count", "int", true, []⟩]
     description := some "Output body for x.ask (\"\nimport os)." },
   { name := "Note"
     fields := [⟨"text", "str", false, ["\nimport os"]⟩]
     description := some "\"\"\"\nimport os # \\" }]

theorem Module.skeleton_source_quoted :
    ∃ source, Module.source "x # \"" [quotedMethod, quotedObject] = .ok source ∧
      skeleton source = some
        ["from __future__ import annotations", "from dataclasses import dataclass",
         "from typing import Optional",
         "ASK_NSID = \"\"", "ASK_KIND = \"\"", "ASK_OUTPUT_ENCODING = \"\"",
         "ASK_ERRORS = (\"\",)",
         "@dataclass", "class AskOutput:", "    \"\"\"\"\"\"", "    count: int",
         "@dataclass", "class Note:", "    \"\"\"\"\"\"", "    text: Optional[str] = None"] := by
  have succeeds : (Module.source "x # \"" [quotedMethod, quotedObject]).isOk = true := by
    decide +kernel
  have made : [quotedMethod, quotedObject].mapM Definition.structs =
      .ok [quotedStructs.take 1, quotedStructs.drop 1] := by
    decide +kernel
  have plain : ∀ definition ∈ [quotedMethod, quotedObject], definition.EndsPlain := by
    intro definition member schema kind description described
    cases member with
    | head => cases kind
    | tail _ member =>
        cases List.mem_singleton.mp member
        cases described
        decide
  cases generated : Module.source "x # \"" [quotedMethod, quotedObject] with
  | error error =>
      rw [generated] at succeeds
      cases succeeds
  | ok source =>
      obtain ⟨structs, again, left⟩ :=
        skeleton_source (by decide) (by decide) plain generated
      cases made.symm.trans again
      refine ⟨source, rfl, left.trans ?_⟩
      decide +kernel

end LexiconCompiler
