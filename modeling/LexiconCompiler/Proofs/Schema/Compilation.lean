import LexiconCompiler.Proofs.Module.Structs
import LexiconCompiler.Proofs.Schema.Decoding

/-!
# Structs and the raw values they come from

A definition is decoded and its structs are made from what was decoded. Here the structs
are compared with the raw value itself: `CompiledAs` reads off the raw value which structs
there are and which fields each of them has, and `compiledAs_of_decode` says that these
are the structs that the two steps give.
-/

namespace LexiconCompiler

open Traversal

/-- A field says what a raw property says: its name, its type, and the values it is
restricted to, which only a text can have. -/
structure Field.Reads (field : Field) (raw : String × Json) : Prop where
  name_eq : field.name = raw.1
  typed : ∃ tag, raw.2.tag? = some tag ∧ (tag, field.typeName) ∈ typeNames ∧
    field.choices.map Json.str = if tag = "string" then raw.2.itemsAt "enum" else []

/-- Whether the list of required names in a raw object mentions a name. -/
def Json.mentions (raw : Json) (name : String) : Bool :=
  (raw.itemsAt "required").any fun item => item.text? == some name

namespace Struct

/-- A struct has one field for each of some raw properties: in their order, but with those
that have to be present before the others. -/
structure Reads (struct : Struct) (name : String) (properties : List (String × Json))
    (required : String → Bool) : Prop where
  name_eq : struct.name = name
  fields : List.Forall₂
    (fun raw field => Field.Reads field raw ∧ field.required = required raw.1)
    (properties.filter (fun raw => required raw.1) ++
      properties.filter (fun raw => !required raw.1))
    struct.fields

/-- A struct reads the properties of a raw object and its list of required names. -/
def ReadsObject (name : String) (raw : Json) (struct : Struct) : Prop :=
  ∃ properties, raw.member? "properties" = some (.obj properties) ∧
    struct.Reads name properties raw.mentions

/-- A struct reads the properties of raw parameters, all of which are required. -/
def ReadsParameters (name : String) (raw : Json) (struct : Struct) : Prop :=
  ∃ properties, raw.member? "properties" = some (.obj properties) ∧
    struct.Reads name properties fun _ => true

/-- A struct reads the schema of a raw body. -/
def ReadsBody (name : String) (raw : Json) (struct : Struct) : Prop :=
  ∃ schema, raw.member? "schema" = some schema ∧ struct.ReadsObject name schema

end Struct

/-- Which structs a raw definition is compiled to: one for an object, and one for every
part of a method that is neither absent nor null. -/
inductive Json.CompiledAs (id : String) (raw : Json) : List Struct → Prop where
  | object {struct : Struct} (tagged : raw.tag? = some "object")
      (reads : struct.ReadsObject (Name.className id) raw) : CompiledAs id raw [struct]
  | method {parameters input output : Option Struct}
      (tagged : raw.tag? = some "query" ∨ raw.tag? = some "procedure")
      (readsParameters : Option.Rel (Struct.ReadsParameters (Name.className id ++ "Params"))
        (raw.present? "parameters") parameters)
      (readsInput : Option.Rel (Struct.ReadsBody (Name.className id ++ "Input"))
        (raw.present? "input") input)
      (readsOutput : Option.Rel (Struct.ReadsBody (Name.className id ++ "Output"))
        (raw.present? "output") output) :
      CompiledAs id raw (parameters.toList ++ input.toList ++ output.toList)

/-! ## Fields -/

/-- The field of a decoded property says what the raw property says. -/
theorem Field.reads_ofEntry {site : Site} {schema : ObjectSchema} {raw : String × Json}
    {entry : String × Primitive} (decoded : DecodesProperty site raw entry) :
    Field.Reads (ofEntry schema entry) raw where
  name_eq := decoded.1
  typed := by
    obtain ⟨tagged, chosen⟩ := Primitive.reads_of_decode decoded.2
    exact ⟨entry.2.tag, tagged, entry.2.mem_typeNames, chosen⟩

theorem Field.requiredFirst_map (schema : ObjectSchema) (entries : List (String × Primitive)) :
    requiredFirst (entries.map (ofEntry schema)) =
      (entries.filter (fun entry => schema.requires entry.1) ++
        entries.filter (fun entry => !schema.requires entry.1)).map (ofEntry schema) := by
  simp only [requiredFirst, List.filter_map, List.map_append]
  rfl

/-- The fields made from decoded properties read the raw properties. -/
theorem Struct.reads_of_ofPlan {site : Site} {owner : String} {plan : Struct.Plan}
    {struct : Struct} (made : Struct.ofPlan owner plan = .ok struct)
    {properties : List (String × Json)}
    (decoded : List.Forall₂ (DecodesProperty site) properties plan.schema.properties.entries)
    {required : String → Bool}
    (agrees : ∀ entry ∈ plan.schema.properties.entries,
      plan.schema.requires entry.1 = required entry.1) :
    struct.Reads plan.name properties required := by
  obtain ⟨_, nameEqual, _, fieldsMade⟩ := Struct.ofPlan_eq_ok_iff.mp made
  obtain ⟨_, fieldsEqual⟩ := Field.ofSchema_eq_ok_iff.mp fieldsMade
  refine ⟨nameEqual, ?_⟩
  rw [fieldsEqual, Field.requiredFirst_map, List.forall₂_map_right_iff]
  have related := forall₂_and_of_mem decoded agrees
  refine List.Forall₂.imp ?_ (List.rel_append
    (forall₂_filter ?_ related) (forall₂_filter ?_ related))
  · intro raw entry ⟨decodes, same⟩
    exact ⟨Field.reads_ofEntry decodes, by rw [← decodes.1]; exact same⟩
  · intro raw entry ⟨decodes, same⟩
    rw [same, decodes.1]
  · intro raw entry ⟨decodes, same⟩
    rw [same, decodes.1]

/-- The names that a decoded object requires are those that its raw value mentions. -/
theorem Json.requires_eq_mentions {raw : Json} {schema : ObjectSchema}
    (listed : raw.itemsAt "required" = schema.required.map .str) (name : String) :
    schema.requires name = raw.mentions name := by
  rw [ObjectSchema.requires, Json.mentions]
  rw [listed, List.any_map, List.contains_eq_any_beq]
  congr 1
  funext other
  simp [Json.text?, Bool.beq_comm (a := name)]

/-- A struct planned for a decoded object reads the raw object. -/
theorem Struct.readsObject_of_ofPlan {site : Site} {owner : String} {plan : Struct.Plan}
    {struct : Struct} (made : Struct.ofPlan owner plan = .ok struct) {raw : Json}
    (clear : raw.Unambiguous) (decoded : ObjectSchema.decode site raw = .ok plan.schema) :
    struct.ReadsObject plan.name raw := by
  have listed := ObjectSchema.itemsAt_required decoded
  obtain ⟨members, rfl, propertiesDecoded, _⟩ := ObjectSchema.decode_eq_ok_iff.mp decoded
  obtain ⟨properties, found, related⟩ := entries_of_decodeProperties clear propertiesDecoded
  refine ⟨properties, found, reads_of_ofPlan made related ?_⟩
  intro entry _
  exact Json.requires_eq_mentions listed entry.1

/-! ## Methods -/

theorem Parameters.requires_asObject {parameters : Parameters} {entry : String × Primitive}
    (member : entry ∈ parameters.properties.entries) :
    parameters.asObject.requires entry.1 = true := by
  rw [ObjectSchema.requires, asObject]
  rw [List.contains_iff_mem]
  exact List.mem_map.mpr ⟨entry, member, rfl⟩

theorem Struct.readsParameters_of_ofPlan {site : Site} {owner id : String} {raw : Json}
    {parameters : Parameters} {struct : Struct} (clear : raw.Unambiguous)
    (decoded : Parameters.decode site raw = .ok parameters)
    (made : Struct.ofPlan owner (Method.parametersPlan id parameters) = .ok struct) :
    struct.ReadsParameters (Name.className id ++ "Params") raw := by
  obtain ⟨members, rfl, propertiesDecoded⟩ := Parameters.decode_eq_ok decoded
  obtain ⟨properties, found, related⟩ := entries_of_decodeProperties clear propertiesDecoded
  refine ⟨properties, found, reads_of_ofPlan made related ?_⟩
  intro entry member
  exact Parameters.requires_asObject member

theorem Struct.readsBody_of_ofPlan {site : Site} {owner name : String} {raw : Json}
    {body : Body} {plan : Struct.Plan} (named : plan.name = name)
    (planned : plan.schema = body.schema) {struct : Struct} (clear : raw.Unambiguous)
    (decoded : Body.decode site raw = .ok body)
    (made : Struct.ofPlan owner plan = .ok struct) : struct.ReadsBody name raw := by
  obtain ⟨_, schema, found, schemaDecoded⟩ := Body.decode_eq_ok_iff.mp decoded
  rw [← planned] at schemaDecoded
  rw [← named]
  exact ⟨schema, found, readsObject_of_ofPlan made (clear.member found) schemaDecoded⟩

/-- The structs of an optional part are there if the raw part is. -/
theorem Struct.rel_of_plans {α : Type} {decodes : Json → α → Prop}
    (reads : Json → Struct → Prop) {owner : String} {plan : α → Struct.Plan}
    {raw : Option Json} {part : Option α}
    (decoded : Option.Rel decodes raw part) {structs : List Struct}
    (made : List.Forall₂ (fun plan struct => Struct.ofPlan owner plan = .ok struct)
      (part.toList.map plan) structs)
    (describes : ∀ value ∈ raw, ∀ part struct, decodes value part →
      Struct.ofPlan owner (plan part) = .ok struct → reads value struct) :
    ∃ struct : Option Struct, structs = struct.toList ∧ Option.Rel reads raw struct := by
  cases decoded with
  | none =>
      cases made
      exact ⟨none, rfl, .none⟩
  | some decodes =>
      cases made with
      | cons here there =>
          cases there
          exact ⟨some _, rfl, .some (describes _ rfl _ _ decodes here)⟩

theorem Method.compiledAs {id : String} {members : List (String × Json)} {method : Method}
    (clear : (Json.obj members).Unambiguous)
    (tagged : (Json.obj members).tag? = some "query" ∨
      (Json.obj members).tag? = some "procedure") {site : Site}
    (decoded : Method.decode site members = .ok method) {structs : List Struct}
    (made : List.Forall₂ (fun plan struct => Struct.ofPlan id plan = .ok struct)
      (method.plans id) structs) : (Json.obj members).CompiledAs id structs := by
  obtain ⟨parameters, input, output, _⟩ := Method.decode_eq_ok_iff.mp decoded
  have within : ∀ key, ∀ value ∈ Site.present? members key, value.Unambiguous := by
    intro key value found
    exact clear.member (Json.member?_of_present? found)
  rw [Method.plans] at made
  obtain ⟨front, outputs, rfl, madeFront, madeOutput⟩ := exists_append_of_forall₂ made
  obtain ⟨first, inputs, rfl, madeParameters, madeInput⟩ := exists_append_of_forall₂ madeFront
  obtain ⟨first, rfl, readsParameters⟩ := Struct.rel_of_plans
    (Struct.ReadsParameters (Name.className id ++ "Params")) parameters madeParameters
    fun value found part struct decoded made =>
      Struct.readsParameters_of_ofPlan (within _ value found) decoded made
  obtain ⟨second, rfl, readsInput⟩ := Struct.rel_of_plans
    (Struct.ReadsBody (Name.className id ++ "Input")) input madeInput
    fun value found part struct decoded made =>
      Struct.readsBody_of_ofPlan rfl rfl (within _ value found) decoded made
  obtain ⟨third, rfl, readsOutput⟩ := Struct.rel_of_plans
    (Struct.ReadsBody (Name.className id ++ "Output")) output madeOutput
    fun value found part struct decoded made =>
      Struct.readsBody_of_ofPlan rfl rfl (within _ value found) decoded made
  exact .method tagged readsParameters readsInput readsOutput

/-! ## Definitions -/

/-- The structs of a decoded definition are those that its raw value describes. -/
theorem Definition.compiledAs_of_decode {id : String} {raw : Json} (clear : raw.Unambiguous)
    {definition : Definition} (decoded : Definition.decode id raw = .ok definition)
    {structs : List Struct} (made : definition.structs = .ok structs) :
    raw.CompiledAs id structs := by
  obtain ⟨tag, members, rfl, tagged, idEqual, kindDecoded⟩ := Definition.decode_eq_ok decoded
  obtain ⟨plans, planned, related⟩ := Definition.structs_eq_ok_iff.mp made
  rw [idEqual] at related
  rw [plans?] at planned
  rw [idEqual] at planned
  simp only [Kind.decode] at kindDecoded
  split at kindDecoded
  case h_2 =>
    obtain ⟨schema, schemaDecoded, kindEqual⟩ := map_eq_ok_iff.mp kindDecoded
    rw [← kindEqual] at planned
    cases planned
    cases related with
    | cons here there =>
        cases there
        exact .object tagged (Struct.readsObject_of_ofPlan here clear schemaDecoded)
  case h_4 =>
    obtain ⟨method, methodDecoded, kindEqual⟩ := map_eq_ok_iff.mp kindDecoded
    rw [← kindEqual] at planned
    cases planned
    exact Method.compiledAs clear (.inl tagged) methodDecoded related
  case h_5 =>
    obtain ⟨method, methodDecoded, kindEqual⟩ := map_eq_ok_iff.mp kindDecoded
    rw [← kindEqual] at planned
    cases planned
    exact Method.compiledAs clear (.inr tagged) methodDecoded related
  case h_3 =>
    obtain ⟨record, _, kindEqual⟩ := map_eq_ok_iff.mp kindDecoded
    rw [← kindEqual] at planned
    cases planned
  case h_10 => cases kindDecoded
  all_goals
    rw [← Except.ok.inj kindDecoded] at planned
    cases planned

/-- A procedure with parameters that it calls optional, without an input, and with an
output whose second property is the required one. -/
def rawProcedure : Json :=
  .obj [("type", .str "procedure"),
    ("parameters", .obj [("properties", .obj [("limit", .obj [("type", .str "integer")])]),
      ("required", .arr [])]),
    ("input", .null),
    ("output", .obj [("encoding", .str "text/plain"),
      ("schema", .obj [("properties", .obj [
          ("note", .obj [("type", .str "string"), ("enum", .arr [.str "a", .str "b"])]),
          ("done", .obj [("type", .str "boolean"), ("enum", .arr [])])]),
        ("required", .arr [.str "done"])])])]

def decodedProcedure : Definition where
  id := "x.ping"
  kind := .procedure {
    parameters := some { label := "params", properties := .ofList [("limit", .integer)] }
    input := none
    output := some {
      encoding := "text/plain"
      schema := {
        properties := .ofList [("note", .string (some ["a", "b"])), ("done", .boolean)]
        required := ["done"] } }
    errors := [] }
  revision := none
  description := none

def procedureStructs : List Struct :=
  [{ name := "PingParams"
     fields := [⟨"limit", "int", true, []⟩]
     description := some "Query parameters for x.ping." },
   { name := "PingOutput"
     fields := [⟨"done", "bool", true, []⟩, ⟨"note", "str", false, ["a", "b"]⟩]
     description := some "Output body for x.ping (text/plain)." }]

theorem compiledAs_rawProcedure :
    rawProcedure.Unambiguous ∧ Definition.decode "x.ping" rawProcedure = .ok decodedProcedure ∧
      decodedProcedure.structs = .ok procedureStructs ∧
      rawProcedure.CompiledAs "x.ping" procedureStructs := by
  have clear : rawProcedure.Unambiguous := by simp [rawProcedure]
  have decoded : Definition.decode "x.ping" rawProcedure = .ok decodedProcedure := by
    decide +kernel
  have made : decodedProcedure.structs = .ok procedureStructs := by decide +kernel
  exact ⟨clear, decoded, made, Definition.compiledAs_of_decode clear decoded made⟩

end LexiconCompiler
