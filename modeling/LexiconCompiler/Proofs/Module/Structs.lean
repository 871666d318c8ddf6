import LexiconCompiler.Module.Constants
import LexiconCompiler.Proofs.Traversal

/-!
# Structs and constants of a definition

What a definition is generated as, if it is: one struct for each of its plans, whose
fields are those of its object, and under names that can be declared.
-/

namespace LexiconCompiler

open Traversal

theorem Name.declarable_eq_ok_iff {owner name result : String} :
    declarable owner name = .ok result ↔ isDeclarable name = true ∧ result = name := by
  rw [declarable]
  split
  · rename_i valid
    constructor
    · intro equal
      cases equal
      exact ⟨valid, rfl⟩
    · rintro ⟨_, rfl⟩
      rfl
  · rename_i invalid
    constructor
    · intro equal
      cases equal
    · rintro ⟨valid, _⟩
      exact absurd valid invalid

/-- The Python types of fields by their tags. -/
def Field.typeNames : List (String × String) :=
  [("boolean", "bool"), ("number", "float"), ("integer", "int"), ("string", "str")]

theorem Primitive.mem_typeNames (primitive : Primitive) :
    (primitive.tag, primitive.typeName) ∈ Field.typeNames := by
  cases primitive <;> simp [tag, typeName, Field.typeNames]

namespace Field

/-- The field of an entry whose name can be declared. -/
def ofEntry (schema : ObjectSchema) (entry : String × Primitive) : Field where
  name := entry.1
  typeName := entry.2.typeName
  required := schema.requires entry.1
  choices := entry.2.choices?.getD []

theorem ofProperty_eq_ok_iff {owner : String} {schema : ObjectSchema}
    {entry : String × Primitive} {field : Field} :
    ofProperty owner schema entry = .ok field ↔
      Name.isDeclarable entry.1 = true ∧ field = ofEntry schema entry := by
  rw [ofProperty]
  rw [bind_eq_ok_iff]
  constructor
  · rintro ⟨name, declared, equal⟩
    obtain ⟨valid, rfl⟩ := Name.declarable_eq_ok_iff.mp declared
    cases equal
    exact ⟨valid, rfl⟩
  · rintro ⟨valid, rfl⟩
    exact ⟨entry.1, Name.declarable_eq_ok_iff.mpr ⟨valid, rfl⟩, rfl⟩

/-- An object has fields exactly if all its properties can be declared. -/
theorem ofSchema_eq_ok_iff {owner : String} {schema : ObjectSchema} {fields : List Field} :
    ofSchema owner schema = .ok fields ↔
      (∀ entry ∈ schema.properties.entries, Name.isDeclarable entry.1 = true) ∧
        fields = requiredFirst (schema.properties.entries.map (ofEntry schema)) := by
  rw [ofSchema]
  rw [bind_eq_ok_iff]
  simp only [mapM_eq_ok_iff_map fun _ _ => ofProperty_eq_ok_iff]
  constructor
  · rintro ⟨fields, ⟨valid, rfl⟩, equal⟩
    cases equal
    exact ⟨valid, rfl⟩
  · rintro ⟨valid, rfl⟩
    exact ⟨_, ⟨valid, rfl⟩, rfl⟩

theorem mem_requiredFirst {fields : List Field} {field : Field} :
    field ∈ requiredFirst fields ↔ field ∈ fields := by
  simp only [requiredFirst, List.mem_append, List.mem_filter]
  cases field.required <;> simp

theorem isDeclarable_of_mem_ofSchema {owner : String} {schema : ObjectSchema}
    {fields : List Field} (made : ofSchema owner schema = .ok fields) {field : Field}
    (member : field ∈ fields) : Name.isDeclarable field.name = true := by
  obtain ⟨valid, rfl⟩ := ofSchema_eq_ok_iff.mp made
  rw [mem_requiredFirst, List.mem_map] at member
  obtain ⟨entry, inside, rfl⟩ := member
  exact valid entry inside

end Field

/-- A struct is what its plan says, and its name can be declared. -/
theorem Struct.ofPlan_eq_ok_iff {owner : String} {plan : Struct.Plan} {struct : Struct} :
    ofPlan owner plan = .ok struct ↔
      Name.isDeclarable plan.name = true ∧ struct.name = plan.name ∧
        struct.description = plan.description ∧
        Field.ofSchema owner plan.schema = .ok struct.fields := by
  rw [ofPlan]
  rw [bind_eq_ok_iff]
  simp only [bind_eq_ok_iff, Name.declarable_eq_ok_iff]
  constructor
  · rintro ⟨name, ⟨valid, rfl⟩, fields, made, equal⟩
    cases equal
    exact ⟨valid, rfl, rfl, made⟩
  · rintro ⟨valid, nameEqual, descriptionEqual, made⟩
    refine ⟨plan.name, ⟨valid, rfl⟩, struct.fields, made, ?_⟩
    rw [← nameEqual, ← descriptionEqual]

namespace Definition

theorem structs_eq_ok_iff {definition : Definition} {structs : List Struct} :
    definition.structs = .ok structs ↔
      ∃ plans, definition.plans? = some plans ∧
        List.Forall₂ (fun plan struct => Struct.ofPlan definition.id plan = .ok struct)
          plans structs := by
  rw [Definition.structs]
  cases definition.plans? with
  | none =>
      constructor
      · intro equal
        cases equal
      · rintro ⟨plans, impossible, _⟩
        cases impossible
  | some plans =>
      rw [mapM_eq_ok_iff]
      constructor
      · intro related
        exact ⟨plans, rfl, related⟩
      · rintro ⟨other, equal, related⟩
        cases equal
        exact related

theorem plan_of_mem_structs {definition : Definition} {structs : List Struct}
    (made : definition.structs = .ok structs) {struct : Struct} (member : struct ∈ structs) :
    ∃ plans, definition.plans? = some plans ∧
      ∃ plan ∈ plans, Struct.ofPlan definition.id plan = .ok struct := by
  obtain ⟨plans, planned, related⟩ := structs_eq_ok_iff.mp made
  obtain ⟨plan, inside, found⟩ := exists_of_mem_right related member
  exact ⟨plans, planned, plan, inside, found⟩

/-- The constants of a method under its stem. -/
def constantsOf (definition : Definition) (method : Method) : Constants where
  stem := Name.screamingSnake (Name.className definition.id)
  id := definition.id
  kind := definition.kind.tag
  description := definition.description
  inputEncoding := method.input.map (·.encoding)
  outputEncoding := method.output.map (·.encoding)
  errors := method.errors.map (·.name)

/-- A definition has constants exactly if it is a method, under a stem that can be
declared. -/
theorem constants_eq_ok_some_iff {definition : Definition} {constants : Constants} :
    definition.constants = .ok (some constants) ↔
      ∃ method, definition.kind.method? = some method ∧
        constants = definition.constantsOf method ∧
        Name.isDeclarable constants.stem = true := by
  rw [Definition.constants]
  cases definition.kind.method? with
  | none => simp
  | some method =>
      simp only [bind_eq_ok_iff, Name.declarable_eq_ok_iff, Option.some.injEq]
      constructor
      · rintro ⟨stem, ⟨valid, rfl⟩, equal⟩
        cases equal
        exact ⟨method, rfl, rfl, valid⟩
      · rintro ⟨other, rfl, rfl, valid⟩
        exact ⟨_, ⟨valid, rfl⟩, rfl⟩

end Definition

end LexiconCompiler
