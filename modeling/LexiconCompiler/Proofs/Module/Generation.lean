import LexiconCompiler.Proofs.Module.Conflicts

/-!
# What a list of definitions is generated as

Besides the structs and constants of its definitions, a module says whether some field may
be absent; an error names the definition that it is about. The main statement,
`ofDefinitions_succeeds_or_rejects`, collects what follows from a list of definitions
whether or not it is generated.
-/

namespace LexiconCompiler

open Traversal

/-! ## Fields that may be absent -/

/-- An object has a property that it does not require. -/
def ObjectSchema.HasOptional (schema : ObjectSchema) : Prop :=
  ∃ name ∈ schema.properties.keys, name ∉ schema.required

/-- The objects of a definition whose properties may be absent: an object itself, and the
input and the output of a method. -/
def Kind.schemas : Kind → List ObjectSchema
  | object schema => [schema]
  | query method => (method.input.toList ++ method.output.toList).map Body.schema
  | procedure method => (method.input.toList ++ method.output.toList).map Body.schema
  | _ => []

theorem Struct.exists_optional_iff {owner : String} {plan : Struct.Plan} {struct : Struct}
    (made : ofPlan owner plan = .ok struct) :
    (∃ field ∈ struct.fields, field.required = false) ↔ plan.schema.HasOptional := by
  obtain ⟨_, equal⟩ := Field.ofSchema_eq_ok_iff.mp (ofPlan_eq_ok_iff.mp made).2.2.2
  rw [equal, ObjectSchema.HasOptional]
  simp only [Field.mem_requiredFirst, Table.keys, List.mem_map]
  constructor
  · rintro ⟨_, ⟨entry, member, rfl⟩, optional⟩
    refine ⟨entry.1, ⟨entry, member, rfl⟩, ?_⟩
    rw [← List.contains_iff_mem, Bool.not_eq_true]
    exact optional
  · rintro ⟨_, ⟨entry, member, rfl⟩, optional⟩
    refine ⟨_, ⟨entry, member, rfl⟩, ?_⟩
    rw [← List.contains_iff_mem, Bool.not_eq_true] at optional
    exact optional

theorem Method.exists_optional_plans_iff {id : String} {method : Method} :
    (∃ plan ∈ method.plans id, plan.schema.HasOptional) ↔
      ∃ schema ∈ (method.input.toList ++ method.output.toList).map Body.schema,
        schema.HasOptional := by
  -- all parameters are required
  have complete : ∀ parameters : Parameters, ¬ parameters.asObject.HasOptional := by
    rintro parameters ⟨name, inside, outside⟩
    exact outside inside
  simp only [plans, List.mem_append, List.mem_map, or_and_right, exists_or]
  constructor
  · rintro ((⟨_, ⟨parameters, _, rfl⟩, optional⟩ | ⟨_, ⟨body, member, rfl⟩, optional⟩) |
      ⟨_, ⟨body, member, rfl⟩, optional⟩)
    · exact absurd optional (complete parameters)
    · exact .inl ⟨body.schema, ⟨body, member, rfl⟩, optional⟩
    · exact .inr ⟨body.schema, ⟨body, member, rfl⟩, optional⟩
  · rintro (⟨_, ⟨body, member, rfl⟩, optional⟩ | ⟨_, ⟨body, member, rfl⟩, optional⟩)
    · exact .inl (.inr ⟨_, ⟨body, member, rfl⟩, optional⟩)
    · exact .inr ⟨_, ⟨body, member, rfl⟩, optional⟩

namespace Definition

theorem exists_optional_plans_iff {definition : Definition} {plans : List Struct.Plan}
    (planned : definition.plans? = some plans) :
    (∃ plan ∈ plans, plan.schema.HasOptional) ↔
      ∃ schema ∈ definition.kind.schemas, schema.HasOptional := by
  rw [plans?] at planned
  split at planned
  · rename_i schema kind
    cases planned
    rw [kind]
    simp [Kind.schemas]
  · rename_i method kind
    cases planned
    rw [kind]
    exact Method.exists_optional_plans_iff
  · rename_i method kind
    cases planned
    rw [kind]
    exact Method.exists_optional_plans_iff
  · cases planned

theorem exists_optional_structs_iff {definition : Definition} {structs : List Struct}
    (made : definition.structs = .ok structs) :
    (∃ struct ∈ structs, ∃ field ∈ struct.fields, field.required = false) ↔
      ∃ schema ∈ definition.kind.schemas, schema.HasOptional := by
  obtain ⟨plans, planned, related⟩ := structs_eq_ok_iff.mp made
  rw [← exists_optional_plans_iff planned]
  constructor
  · rintro ⟨struct, member, optional⟩
    obtain ⟨plan, inside, found⟩ := exists_of_mem_right related member
    exact ⟨plan, inside, (Struct.exists_optional_iff found).mp optional⟩
  · rintro ⟨plan, member, optional⟩
    obtain ⟨struct, inside, found⟩ := exists_of_mem_left related member
    exact ⟨struct, inside, (Struct.exists_optional_iff found).mpr optional⟩

end Definition

/-- A module has a field that may be absent exactly if one of its definitions has a
property that is not required. -/
theorem Module.hasOptionalField_iff {sourceId : String} {definitions : List Definition}
    {generated : Module} (made : ofDefinitions sourceId definitions = .ok generated) :
    generated.hasOptionalField = true ↔
      ∃ definition ∈ definitions, ∃ schema ∈ definition.kind.schemas, schema.HasOptional := by
  obtain ⟨alone, rfl⟩ := eq_of_ofDefinitions made
  simp only [hasOptionalField, List.any_eq_true, Bool.not_eq_true', List.mem_flatMap]
  constructor
  · rintro ⟨struct, ⟨definition, member, inside⟩, optional⟩
    obtain ⟨structs, found⟩ := (alone definition member).1
    rw [Definition.madeStructs_of_ok found] at inside
    exact ⟨definition, member,
      (Definition.exists_optional_structs_iff found).mp ⟨struct, inside, optional⟩⟩
  · rintro ⟨definition, member, declared⟩
    obtain ⟨structs, found⟩ := (alone definition member).1
    obtain ⟨struct, inside, optional⟩ :=
      (Definition.exists_optional_structs_iff found).mpr declared
    rw [← Definition.madeStructs_of_ok found] at inside
    exact ⟨struct, ⟨definition, member, inside⟩, optional⟩

/-! ## Errors -/

namespace Definition

/-- How a definition fails by itself: nothing is generated for its kind, or it has a name
that cannot be declared. The error names the definition by its id. To that it joins the
name that cannot be declared, which stands alone if the id is empty. -/
inductive OwnError (definition : Definition) : Error → Prop where
  | notGenerated : OwnError definition {
      cause := .notGenerated
      identifier := some definition.id
      tag := some definition.kind.tag }
  | notDeclarable (name : String) : OwnError definition {
      cause := .schema (.notDeclarable name)
      identifier := some (if definition.id = "" then name else Name.member definition.id name)
      tag := none }

variable {definition : Definition} {error : Error}

theorem ownError_of_declarable {name : String}
    (refused : Name.declarable definition.id name = .error error) :
    definition.OwnError error := by
  rw [Name.declarable] at refused
  split at refused
  · cases refused
  · cases refused
    exact .notDeclarable name

theorem ownError_of_ofSchema {schema : ObjectSchema}
    (refused : Field.ofSchema definition.id schema = .error error) :
    definition.OwnError error := by
  rw [Field.ofSchema, bind_eq_error_iff] at refused
  rcases refused with failed | ⟨_, _, impossible⟩
  · obtain ⟨_, entry, _, _, _, here⟩ := mapM_eq_error_iff.mp failed
    rw [Field.ofProperty, bind_eq_error_iff] at here
    rcases here with undeclared | ⟨_, _, impossible⟩
    · exact ownError_of_declarable undeclared
    · cases impossible
  · cases impossible

theorem ownError_of_ofPlan {plan : Struct.Plan}
    (refused : Struct.ofPlan definition.id plan = .error error) :
    definition.OwnError error := by
  rw [Struct.ofPlan, bind_eq_error_iff] at refused
  rcases refused with undeclared | ⟨_, _, later⟩
  · exact ownError_of_declarable undeclared
  · rcases bind_eq_error_iff.mp later with fields | ⟨_, _, impossible⟩
    · exact ownError_of_ofSchema fields
    · cases impossible

theorem ownError_of_structs (refused : definition.structs = .error error) :
    definition.OwnError error := by
  rw [Definition.structs] at refused
  split at refused
  · obtain ⟨_, plan, _, _, _, here⟩ := mapM_eq_error_iff.mp refused
    exact ownError_of_ofPlan here
  · cases refused
    exact .notGenerated

theorem ownError_of_constants (refused : definition.constants = .error error) :
    definition.OwnError error := by
  rw [Definition.constants] at refused
  split at refused
  · cases refused
  · rcases bind_eq_error_iff.mp refused with undeclared | ⟨_, _, impossible⟩
    · exact ownError_of_declarable undeclared
    · cases impossible

end Definition

namespace Module

/-- A definition is rejected for a failure of its own, or for a name that belongs to one
before it. -/
theorem Rejects.cases_error {before : List Definition} {definition : Definition} {error : Error}
    (rejects : Rejects before definition error) :
    definition.OwnError error ∨
      ∃ name, ∃ owner ∈ before, owner.Declares name ∧ error = taken definition name owner.id := by
  cases rejects with
  | structs unmade => exact .inl (Definition.ownError_of_structs unmade)
  | className _ _ member owns => exact .inr ⟨_, _, member, owns, rfl⟩
  | constants _ _ unmade => exact .inl (Definition.ownError_of_constants unmade)
  | stem _ _ _ member owns => exact .inr ⟨_, _, member, owns, rfl⟩

theorem Rejects.identifier {before : List Definition} {definition : Definition} {error : Error}
    (rejects : Rejects before definition error) :
    error.identifier = some definition.id ∨
      ∃ name, error.cause = .schema (.notDeclarable name) ∧ error.identifier =
        some (if definition.id = "" then name else Name.member definition.id name) := by
  rcases rejects.cases_error with own | ⟨name, owner, _, _, rfl⟩
  · cases own with
    | notGenerated => exact .inl rfl
    | notDeclarable name => exact .inr ⟨name, rfl, rfl⟩
  · exact .inl rfl

theorem Rejects.owner {before : List Definition} {definition : Definition} {error : Error}
    (rejects : Rejects before definition error) {name : Name.Generated} {owner : String}
    (repeated : error.cause = .schema (.alreadyGenerated name owner)) :
    ∃ earlier ∈ before, earlier.Declares name ∧ earlier.id = owner ∧
      error.report.message =
        Text.quoted name.display ++ " is already generated for " ++ earlier.id := by
  rcases rejects.cases_error with own | ⟨other, earlier, member, declares, rfl⟩
  · cases own with
    | notGenerated => cases repeated
    | notDeclarable _ => cases repeated
  · cases repeated
    exact ⟨earlier, member, declares, rfl, rfl⟩

/-- Whether a module is generated does not depend on the order of its definitions, and no
definition conflicts with itself. A module that is generated holds what its definitions are
generated as, in their order. Otherwise the first definition that fails by itself or repeats
a name gives the error. -/
theorem ofDefinitions_succeeds_or_rejects (sourceId : String) (definitions : List Definition) :
    (Succeeds (ofDefinitions sourceId definitions) ↔
      (∀ definition ∈ definitions,
        Succeeds definition.structs ∧ Succeeds definition.constants) ∧
      ((definitions.flatMap Definition.madeStructs).map Struct.name).Nodup ∧
      ((definitions.flatMap Definition.madeConstants).map Constants.stem).Nodup) ∧
    (∀ others, definitions.Perm others →
      (Succeeds (ofDefinitions sourceId definitions) ↔
        Succeeds (ofDefinitions sourceId others))) ∧
    (∀ definition, Succeeds (ofDefinitions sourceId [definition]) ↔
      Succeeds definition.structs ∧ Succeeds definition.constants) ∧
    (∀ generated, ofDefinitions sourceId definitions = .ok generated →
      generated.sourceId = sourceId ∧
      generated.structs = definitions.flatMap Definition.madeStructs ∧
      generated.methods = definitions.flatMap Definition.madeConstants ∧
      generated.structCount = (definitions.flatMap Definition.madeStructs).length ∧
      (generated.hasOptionalField = true ↔
        ∃ definition ∈ definitions, ∃ schema ∈ definition.kind.schemas,
          schema.HasOptional)) ∧
    (∀ error, ofDefinitions sourceId definitions = .error error →
      ∃ before definition after, definitions = before ++ definition :: after ∧
        Succeeds (ofDefinitions sourceId before) ∧ Rejects before definition error ∧
        (error.identifier = some definition.id ∨
          ∃ name, error.cause = .schema (.notDeclarable name) ∧ error.identifier =
            some (if definition.id = "" then name else Name.member definition.id name)) ∧
        ∀ name owner, error.cause = .schema (.alreadyGenerated name owner) →
          ∃ earlier ∈ before, earlier.Declares name ∧ earlier.id = owner ∧
            error.report.message =
              Text.quoted name.display ++ " is already generated for " ++ earlier.id) ∧
    ∀ (first second : Definition) (name other : Name.Generated), first.Declares name →
      second.Declares other → name.display = other.display → name = other := by
  refine ⟨succeeds_ofDefinitions_iff, fun others => succeeds_ofDefinitions_perm,
    fun definition => succeeds_ofDefinitions_singleton, ?_, ?_, ?_⟩
  · intro generated made
    have optional := hasOptionalField_iff made
    obtain ⟨_, rfl⟩ := eq_of_ofDefinitions made
    exact ⟨rfl, rfl, rfl, rfl, optional⟩
  · intro error failed
    obtain ⟨before, definition, after, split, succeeds, rejects⟩ :=
      ofDefinitions_eq_error_iff.mp failed
    exact ⟨before, definition, after, split, succeeds, rejects, rejects.identifier,
      fun name owner repeated => rejects.owner repeated⟩
  · intro first second name other declares again same
    exact declares.display_inj again same

/-- An object without properties. -/
def bareObject (id : String) : Definition where
  id := id
  kind := .object { properties := .empty, required := [] }
  revision := none
  description := none

theorem ofDefinitions_rejects_repeated_class :
    ofDefinitions "x" [bareObject "x.thing", bareObject "y.Thing"] =
        .error (taken (bareObject "y.Thing") (.ofClass "Thing") "x.thing") ∧
      ¬ Succeeds (ofDefinitions "x" [bareObject "y.Thing", bareObject "x.thing"]) := by
  have refused : ofDefinitions "x" [bareObject "x.thing", bareObject "y.Thing"] =
      .error (taken (bareObject "y.Thing") (.ofClass "Thing") "x.thing") := by
    decide +kernel
  obtain ⟨_, reorders, _⟩ :=
    ofDefinitions_succeeds_or_rejects "x" [bareObject "x.thing", bareObject "y.Thing"]
  refine ⟨refused, ?_⟩
  rw [← reorders _ (List.Perm.swap _ _ _)]
  exact not_succeeds_iff.mpr ⟨_, refused⟩

/-- A query without a name, one of whose parameters cannot be declared. -/
def namelessQuery : Definition where
  id := ""
  kind := .query {
    parameters := some { label := "params", properties := .ofList [("1a", .integer)] }
    input := none
    output := none
    errors := [] }
  revision := none
  description := none

theorem identifier_of_namelessQuery :
    ofDefinitions "x.y" [namelessQuery] =
        .error { cause := .schema (.notDeclarable "1a"), identifier := some "1a", tag := none } ∧
      "1a" ≠ namelessQuery.id ∧ "1a" ≠ Name.member namelessQuery.id "1a" := by
  refine ⟨?_, by decide, by decide⟩
  decide +kernel

end Module

end LexiconCompiler
