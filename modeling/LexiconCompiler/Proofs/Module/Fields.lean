import LexiconCompiler.Proofs.Module.Structs
import Mathlib.Data.List.Perm.Basic

/-!
# The order of fields

A class may not declare a field with a default before one without, so the fields of an
object are rearranged: those that have to be present come first, and otherwise the order of
the properties is kept. Errors still follow the order of the properties.
-/

namespace LexiconCompiler

open Traversal

/-- The error for a name that cannot be declared: it names the owner and the name, or the
name alone if the owner has none. -/
def Name.undeclarable (owner name : String) : Error where
  cause := .schema (.notDeclarable name)
  identifier := some (if owner = "" then name else Name.member owner name)
  tag := none

theorem Name.declarable_eq_error_iff {owner name : String} {error : Error} :
    declarable owner name = .error error ↔
      isDeclarable name = false ∧ error = undeclarable owner name := by
  rw [declarable]
  split
  · rename_i valid
    simp [valid]
  · rename_i invalid
    simp [invalid, undeclarable, eq_comm]

/-- The fields of an object as a class may declare them: one for every property, those that
are required before those that are not, and otherwise in the order of the properties. -/
structure ObjectSchema.Arranges (schema : ObjectSchema) (fields : List Field) : Prop where
  complete : fields.Perm (schema.properties.entries.map (Field.ofEntry schema))
  requiredFirst : fields.Pairwise fun earlier later =>
    later.required = true → earlier.required = true
  inOrder : ∀ group, ((fields.filter fun field => field.required == group).map
    Field.name).Sublist schema.properties.keys
  required_iff : ∀ field ∈ fields, field.required = true ↔ field.name ∈ schema.required

namespace Field

theorem required_ofEntry_iff {schema : ObjectSchema} {entry : String × Primitive} :
    (ofEntry schema entry).required = true ↔ entry.1 ∈ schema.required :=
  List.contains_iff_mem

theorem map_name_ofEntry (schema : ObjectSchema) (entries : List (String × Primitive)) :
    (entries.map (ofEntry schema)).map Field.name = entries.map Prod.fst := by
  rw [List.map_map]
  rfl

theorem pairwise_requiredFirst (fields : List Field) :
    (requiredFirst fields).Pairwise fun earlier later =>
      later.required = true → earlier.required = true := by
  rw [requiredFirst, List.pairwise_append]
  refine ⟨?_, ?_, ?_⟩
  · apply List.pairwise_of_forall_mem_list
    intro earlier member _ _ _
    exact (List.mem_filter.mp member).2
  · apply List.pairwise_of_forall_mem_list
    intro _ _ later member required
    simp [required] at member
  · intro earlier member _ _ _
    exact (List.mem_filter.mp member).2

/-- Each group of fields keeps its order. -/
theorem filter_requiredFirst (fields : List Field) (group : Bool) :
    (requiredFirst fields).filter (fun field => field.required == group) =
      fields.filter fun field => field.required == group := by
  rw [requiredFirst, List.filter_append, List.filter_filter, List.filter_filter]
  cases group <;> simp [Bool.and_not_self]

theorem requiredFirst_perm (fields : List Field) : (requiredFirst fields).Perm fields := by
  have parted := List.filter_append_perm (fun field : Field => field.required = true) fields
  simpa [requiredFirst] using parted

theorem requiredFirst_of_forall {fields : List Field}
    (all : ∀ field ∈ fields, field.required = true) : requiredFirst fields = fields := by
  rw [requiredFirst, List.filter_eq_self.mpr all, List.filter_eq_nil_iff.mpr, List.append_nil]
  intro field member
  simp [all field member]

variable {owner : String} {schema : ObjectSchema}

theorem ofSchema_of_forall
    (valid : ∀ name ∈ schema.properties.keys, Name.isDeclarable name = true) :
    ofSchema owner schema =
      .ok (requiredFirst (schema.properties.entries.map (ofEntry schema))) :=
  ofSchema_eq_ok_iff.mpr ⟨fun _ member => valid _ (List.mem_map_of_mem member), rfl⟩

theorem succeeds_ofSchema_iff : Succeeds (ofSchema owner schema) ↔
    ∀ name ∈ schema.properties.keys, Name.isDeclarable name = true := by
  constructor
  · rintro ⟨fields, made⟩ name member
    obtain ⟨entry, inside, rfl⟩ := List.mem_map.mp member
    exact (ofSchema_eq_ok_iff.mp made).1 entry inside
  · intro valid
    exact ⟨_, ofSchema_of_forall valid⟩

theorem arranges_requiredFirst (schema : ObjectSchema) :
    schema.Arranges (requiredFirst (schema.properties.entries.map (ofEntry schema))) where
  complete := requiredFirst_perm _
  requiredFirst := pairwise_requiredFirst _
  inOrder := by
    intro group
    rw [filter_requiredFirst, Table.keys, ← map_name_ofEntry schema]
    exact List.filter_sublist.map Field.name
  required_iff := by
    intro field member
    rw [mem_requiredFirst, List.mem_map] at member
    obtain ⟨entry, _, rfl⟩ := member
    exact required_ofEntry_iff

theorem succeeds_ofProperty_iff {entry : String × Primitive} :
    Succeeds (ofProperty owner schema entry) ↔ Name.isDeclarable entry.1 = true := by
  simp [Succeeds, ofProperty_eq_ok_iff]

theorem ofProperty_eq_error_iff {entry : String × Primitive} {error : Error} :
    ofProperty owner schema entry = .error error ↔
      Name.isDeclarable entry.1 = false ∧ error = Name.undeclarable owner entry.1 := by
  rw [ofProperty, bind_eq_error_iff, Name.declarable_eq_error_iff]
  simp

/-- The error is about the first property, in their own order, that cannot be declared. -/
theorem ofSchema_eq_error_iff {error : Error} :
    ofSchema owner schema = .error error ↔
      ∃ before name after, schema.properties.keys = before ++ name :: after ∧
        (∀ earlier ∈ before, Name.isDeclarable earlier = true) ∧
        Name.isDeclarable name = false ∧ error = Name.undeclarable owner name := by
  have only : ofSchema owner schema = .error error ↔
      FailsFirst (ofProperty owner schema) schema.properties.entries error := by
    rw [ofSchema, bind_eq_error_iff, mapM_eq_error_iff]
    simp
  rw [only]
  constructor
  · rintro ⟨before, entry, after, split, passes, fails⟩
    refine ⟨before.map Prod.fst, entry.1, after.map Prod.fst, ?_, ?_,
      ofProperty_eq_error_iff.mp fails⟩
    · rw [Table.keys, split, List.map_append, List.map_cons]
    · intro earlier member
      obtain ⟨other, inside, rfl⟩ := List.mem_map.mp member
      exact succeeds_ofProperty_iff.mp (passes other inside)
  · rintro ⟨before, name, after, split, passes, fails⟩
    obtain ⟨first, rest, entries, rfl, shown⟩ := List.map_eq_append_iff.mp split
    obtain ⟨entry, others, rfl, rfl, _⟩ := List.map_eq_cons_iff.mp shown
    refine ⟨first, entry, others, entries, ?_, ofProperty_eq_error_iff.mpr fails⟩
    intro earlier member
    exact succeeds_ofProperty_iff.mpr (passes _ (List.mem_map_of_mem member))

/-- Required names matter only as far as they are names of properties. -/
theorem ofSchema_congr {required : List String}
    (agrees : ∀ name ∈ schema.properties.keys, name ∈ required ↔ name ∈ schema.required) :
    ofSchema owner { schema with required } = ofSchema owner schema := by
  cases made : ofSchema owner schema with
  | error error =>
      rw [ofSchema_eq_error_iff] at made ⊢
      exact made
  | ok fields =>
      obtain ⟨valid, rfl⟩ := ofSchema_eq_ok_iff.mp made
      refine ofSchema_eq_ok_iff.mpr ⟨valid, congrArg requiredFirst (List.map_congr_left ?_)⟩
      intro entry member
      have same := agrees entry.1 (List.mem_map_of_mem member)
      simp [ofEntry, ObjectSchema.requires, same]

/-- The field of a parameter, which has to be present. -/
def ofParameter (entry : String × Primitive) : Field where
  name := entry.1
  typeName := entry.2.typeName
  required := true
  choices := entry.2.choices?.getD []

/-- Parameters are all required, so their fields keep the order of the properties. -/
theorem ofSchema_asObject {parameters : Parameters}
    (valid : ∀ name ∈ parameters.properties.keys, Name.isDeclarable name = true) :
    ofSchema owner parameters.asObject =
      .ok (parameters.properties.entries.map ofParameter) := by
  have all : ∀ entry ∈ parameters.properties.entries,
      parameters.asObject.requires entry.1 = true := by
    intro entry member
    exact List.contains_iff_mem.mpr (List.mem_map_of_mem member)
  have declarable : ∀ name ∈ parameters.asObject.properties.keys,
      Name.isDeclarable name = true := valid
  rw [ofSchema_of_forall declarable, requiredFirst_of_forall]
  · congr 1
    apply List.map_congr_left
    intro entry member
    rw [ofEntry, all entry member, ofParameter]
  · intro field member
    obtain ⟨entry, inside, rfl⟩ := List.mem_map.mp member
    exact all entry inside

/-- Fields are made of an object exactly if all its properties can be declared, and they
are arranged as a class needs them. Required names that are no properties have no part in
this, and parameters keep their order. Otherwise the first property that cannot be declared
is reported. -/
theorem ofSchema_arranges_or_rejects (owner : String) (schema : ObjectSchema) :
    (Succeeds (ofSchema owner schema) ↔
      ∀ name ∈ schema.properties.keys, Name.isDeclarable name = true) ∧
    (∀ fields, ofSchema owner schema = .ok fields → schema.Arranges fields) ∧
    (∀ required : List String,
      (∀ name ∈ schema.properties.keys, name ∈ required ↔ name ∈ schema.required) →
      ofSchema owner { schema with required } = ofSchema owner schema) ∧
    (∀ parameters : Parameters,
      (∀ name ∈ parameters.properties.keys, Name.isDeclarable name = true) →
      ofSchema owner parameters.asObject =
        .ok (parameters.properties.entries.map ofParameter)) ∧
    (∀ error, ofSchema owner schema = .error error ↔
      ∃ before name after, schema.properties.keys = before ++ name :: after ∧
        (∀ earlier ∈ before, Name.isDeclarable earlier = true) ∧
        Name.isDeclarable name = false ∧ error = Name.undeclarable owner name) ∧
    ∀ name, (Name.undeclarable owner name).report = {
      category := .schemaMismatch
      message := Text.quoted name ++ " is not a valid Python identifier"
      identifier := some (if owner = "" then name else owner ++ "#" ++ name)
      tag := none } := by
  refine ⟨succeeds_ofSchema_iff, ?_, fun required => ofSchema_congr,
    fun parameters => ofSchema_asObject, fun error => ofSchema_eq_error_iff, fun name => rfl⟩
  intro fields made
  obtain ⟨_, rfl⟩ := ofSchema_eq_ok_iff.mp made
  exact arranges_requiredFirst schema

/-- An object that requires its last property twice, and a name that is no property. -/
def phantomSchema : ObjectSchema where
  properties := .ofList [("b", .integer), ("a", .string (some ["x"])), ("c", .boolean)]
  required := ["c", "ghost", "c"]

/-- The fields of the object, the required one first. -/
def phantomFields : List Field :=
  [⟨"c", "bool", true, []⟩, ⟨"b", "int", false, []⟩, ⟨"a", "str", false, ["x"]⟩]

theorem ofSchema_arranges_phantomSchema :
    ofSchema "x.y" phantomSchema = .ok phantomFields ∧ phantomSchema.Arranges phantomFields ∧
      ofSchema "x.y" { phantomSchema with required := ["c"] } = .ok phantomFields := by
  obtain ⟨_, arranges, only, _⟩ := ofSchema_arranges_or_rejects "x.y" phantomSchema
  have made : ofSchema "x.y" phantomSchema = .ok phantomFields := by decide +kernel
  have agrees : ∀ name ∈ phantomSchema.properties.keys,
      name ∈ ["c"] ↔ name ∈ phantomSchema.required := by
    decide +kernel
  exact ⟨made, arranges _ made, (only ["c"] agrees).trans made⟩

end Field

end LexiconCompiler
