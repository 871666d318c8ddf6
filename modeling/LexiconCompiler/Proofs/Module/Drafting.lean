import Mathlib.Data.List.Nodup
import Mathlib.Data.List.ReduceOption
import LexiconCompiler.Module
import LexiconCompiler.Proofs.Traversal

/-!
# Drafting a module

Each definition extends the draft of a module by its structs and its constants, and every
name that it adds is new. So a module holds what its definitions ask for, in their order,
and no class name and no stem of constants occurs twice.
-/

namespace LexiconCompiler.Module

open Traversal

/-- The names that a module declares for its structs. -/
def classNames (structs : List Struct) : List Name.Generated :=
  structs.map fun struct => .ofClass struct.name

/-- The names that a module declares for its groups of constants. -/
def stemNames (methods : List Constants) : List Name.Generated :=
  methods.map fun constants => .ofConstants constants.stem

namespace Draft

/-- A later draft holds what an earlier one does, and some structs and constants more,
whose names nobody owned before. -/
structure Extends (before : Draft) (structs : List Struct) (methods : List Constants)
    (after : Draft) : Prop where
  structs_eq : after.structs = before.structs ++ structs
  methods_eq : after.methods = before.methods ++ methods
  keys_perm : after.owners.keys.Perm
    (before.owners.keys ++ (classNames structs ++ stemNames methods))

theorem Extends.refl (draft : Draft) : draft.Extends [] [] draft where
  structs_eq := by simp
  methods_eq := by simp
  keys_perm := by simp [classNames, stemNames]

theorem Extends.trans {first second third : Draft} {structs structs' : List Struct}
    {methods methods' : List Constants} (earlier : first.Extends structs methods second)
    (later : second.Extends structs' methods' third) :
    first.Extends (structs ++ structs') (methods ++ methods') third where
  structs_eq := by rw [later.structs_eq, earlier.structs_eq, List.append_assoc]
  methods_eq := by rw [later.methods_eq, earlier.methods_eq, List.append_assoc]
  keys_perm := by
    refine later.keys_perm.trans ((earlier.keys_perm.append_right _).trans ?_)
    rw [List.append_assoc]
    apply List.Perm.append_left
    simp only [classNames, stemNames, List.map_append, List.append_assoc]
    apply List.Perm.append_left
    rw [← List.append_assoc, ← List.append_assoc]
    exact List.perm_append_comm.append_right _

/-- A name is given to a definition exactly if nobody owns it, and it is owned then. -/
theorem claim_eq_ok {draft : Draft} {definition : Definition} {name : Name.Generated}
    {owners : Table Name.Generated String} (claimed : draft.claim definition name = .ok owners) :
    owners.keys = draft.owners.keys ++ [name] := by
  rw [claim] at claimed
  cases found : draft.owners.get? name with
  | some owner =>
      rw [found] at claimed
      cases claimed
  | none =>
      rw [found] at claimed
      cases claimed
      have absent : name ∉ draft.owners.keys := by
        intro member
        have present := Table.isSome_get?_iff.mpr member
        rw [found] at present
        cases present
      rw [Table.keys_insert, if_neg absent]

theorem extends_of_addStruct {definition : Definition} {before after : Draft}
    {struct : Struct} (added : addStruct definition before struct = .ok after) :
    before.Extends [struct] [] after := by
  obtain ⟨owners, claimed, equal⟩ := bind_eq_ok_iff.mp added
  cases equal
  refine ⟨rfl, by simp, ?_⟩
  rw [claim_eq_ok claimed]
  simp [classNames, stemNames]

theorem extends_of_addStructs {definition : Definition} {structs : List Struct}
    {before after : Draft}
    (added : structs.foldlM (addStruct definition) before = .ok after) :
    before.Extends structs [] after := by
  induction structs generalizing before with
  | nil =>
      cases added
      exact Extends.refl _
  | cons struct structs ih =>
      rw [List.foldlM_cons] at added
      obtain ⟨between, first, rest⟩ := bind_eq_ok_iff.mp added
      exact (extends_of_addStruct first).trans (ih rest)

theorem extends_of_addConstants {definition : Definition} {before after : Draft}
    {constants : Option Constants}
    (added : before.addConstants definition constants = .ok after) :
    before.Extends [] constants.toList after := by
  cases constants with
  | none =>
      cases added
      exact Extends.refl _
  | some constants =>
      obtain ⟨owners, claimed, equal⟩ := bind_eq_ok_iff.mp added
      cases equal
      refine ⟨by simp, rfl, ?_⟩
      rw [claim_eq_ok claimed]
      simp [classNames, stemNames]

/-- A definition adds its structs and its constants. -/
theorem extends_of_add {definition : Definition} {before after : Draft}
    (added : before.add definition = .ok after) :
    ∃ structs constants, definition.structs = .ok structs ∧
      definition.constants = .ok constants ∧
      before.Extends structs constants.toList after := by
  obtain ⟨structs, structsMade, added⟩ := bind_eq_ok_iff.mp added
  obtain ⟨between, first, added⟩ := bind_eq_ok_iff.mp added
  obtain ⟨constants, constantsMade, second⟩ := bind_eq_ok_iff.mp added
  refine ⟨structs, constants, structsMade, constantsMade, ?_⟩
  have whole := (extends_of_addStructs first).trans (extends_of_addConstants second)
  rwa [List.append_nil, List.nil_append] at whole

theorem extends_of_addAll {definitions : List Definition} {before after : Draft}
    (added : definitions.foldlM add before = .ok after) :
    ∃ structs constants, definitions.mapM Definition.structs = .ok structs ∧
      definitions.mapM Definition.constants = .ok constants ∧
      before.Extends structs.flatten constants.reduceOption after := by
  induction definitions generalizing before with
  | nil =>
      cases added
      exact ⟨[], [], rfl, rfl, Extends.refl _⟩
  | cons definition definitions ih =>
      rw [List.foldlM_cons] at added
      obtain ⟨between, first, rest⟩ := bind_eq_ok_iff.mp added
      obtain ⟨structs, constants, structsMade, constantsMade, here⟩ := extends_of_add first
      obtain ⟨allStructs, allConstants, allStructsMade, allConstantsMade, there⟩ := ih rest
      refine ⟨structs :: allStructs, constants :: allConstants,
        mapM_eq_ok_iff.mpr (.cons structsMade (mapM_eq_ok_iff.mp allStructsMade)),
        mapM_eq_ok_iff.mpr (.cons constantsMade (mapM_eq_ok_iff.mp allConstantsMade)), ?_⟩
      have whole := here.trans there
      cases constants with
      | none => simpa using whole
      | some constants => simpa using whole

end Draft

/-- What a generated module holds: the structs and the constants of its definitions, in
their order, under names that all differ. -/
structure Holds (generated : Module) (structs : List (List Struct))
    (constants : List (Option Constants)) : Prop where
  structs_eq : generated.structs = structs.flatten
  methods_eq : generated.methods = constants.reduceOption
  nodup_classNames : (generated.structs.map Struct.name).Nodup
  nodup_stems : (generated.methods.map Constants.stem).Nodup

theorem holds_of_ofDefinitions {sourceId : String} {definitions : List Definition}
    {generated : Module} (made : ofDefinitions sourceId definitions = .ok generated) :
    generated.sourceId = sourceId ∧ ∃ structs constants,
      definitions.mapM Definition.structs = .ok structs ∧
      definitions.mapM Definition.constants = .ok constants ∧
      generated.Holds structs constants := by
  obtain ⟨draft, drafted, equal⟩ := bind_eq_ok_iff.mp made
  cases equal
  obtain ⟨structs, constants, structsMade, constantsMade, extended⟩ :=
    Draft.extends_of_addAll drafted
  refine ⟨rfl, structs, constants, structsMade, constantsMade, ?_⟩
  have structsEqual : draft.structs = structs.flatten := by
    simpa [Draft.empty] using extended.structs_eq
  have methodsEqual : draft.methods = constants.reduceOption := by
    simpa [Draft.empty] using extended.methods_eq
  -- the owners are a table, so what they own differs
  have distinct : (classNames draft.structs ++ stemNames draft.methods).Nodup := by
    have owned := extended.keys_perm.nodup draft.owners.distinct
    rw [structsEqual, methodsEqual]
    simpa [Draft.empty] using owned
  rw [List.nodup_append] at distinct
  refine ⟨structsEqual, methodsEqual, ?_, ?_⟩
  · apply List.Nodup.of_map Name.Generated.ofClass
    simpa [classNames, Function.comp_def] using distinct.1
  · apply List.Nodup.of_map Name.Generated.ofConstants
    simpa [stemNames, Function.comp_def] using distinct.2.1

/-- A struct of a module belongs to one of its definitions. -/
theorem Holds.definition_of_mem {generated : Module} {structs : List (List Struct)}
    {constants : List (Option Constants)} (holds : generated.Holds structs constants)
    {definitions : List Definition}
    (made : definitions.mapM Definition.structs = .ok structs) {struct : Struct}
    (member : struct ∈ generated.structs) :
    ∃ definition ∈ definitions, ∃ group, definition.structs = .ok group ∧ struct ∈ group := by
  rw [holds.structs_eq] at member
  obtain ⟨group, inside, found⟩ := List.mem_flatten.mp member
  obtain ⟨definition, known, here⟩ := exists_of_mem_right (mapM_eq_ok_iff.mp made) inside
  exact ⟨definition, known, group, here, found⟩

end LexiconCompiler.Module
