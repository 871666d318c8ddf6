import LexiconCompiler.Proofs.Schema.Decoding

/-!
# The grammar of definitions

Which raw values are definitions, said without decoding them: what each part has to hold,
and what it may leave out or set to null. Exactly these values are decoded.
-/

namespace LexiconCompiler

open Traversal

namespace Json

/-! ## Members -/

/-- A member is there, and its value passes a test. -/
def Has (raw : Json) (key : String) (test : Json → Prop) : Prop :=
  ∃ value, raw.member? key = some value ∧ test value

/-- A member is absent or null, or its value passes a test. -/
inductive Permits (raw : Json) (key : String) (test : Json → Prop) : Prop where
  | absent (missing : raw.member? key = none) : Permits raw key test
  | null (found : raw.member? key = some .null) : Permits raw key test
  | passes {value : Json} (found : raw.member? key = some value) (holds : test value) :
      Permits raw key test

/-- A text. -/
inductive IsText : Json → Prop where
  | str (value : String) : IsText (.str value)

/-- A whole number or a truth value. -/
inductive IsRevision : Json → Prop where
  | int (value : Int) : IsRevision (.int value)
  | bool (value : Bool) : IsRevision (.bool value)

/-- A list whose items pass a test. -/
inductive IsListOf (test : Json → Prop) : Json → Prop where
  | arr {items : List Json} (inside : ∀ item ∈ items, test item) : IsListOf test (.arr items)

/-! ## Objects -/

/-- A property names its type, and a text may list the choices that it is restricted to. -/
inductive IsProperty (raw : Json) : Prop where
  | plain {tag : String} (tagged : raw.tag? = some tag)
      (known : tag ∈ ["boolean", "number", "integer"]) : IsProperty raw
  | text (tagged : raw.tag? = some "string") (choices : raw.Permits "enum" (IsListOf IsText)) :
      IsProperty raw

/-- The properties of an object, each of which is one. -/
structure HasProperties (raw : Json) (properties : List (String × Json)) : Prop where
  found : raw.member? "properties" = some (.obj properties)
  typed : ∀ property ∈ properties, property.2.IsProperty

/-- An object schema has properties, and the names that it requires are among theirs. -/
inductive IsObjectSchema (raw : Json) : Prop where
  | schema {properties : List (String × Json)} (table : raw.HasProperties properties)
      (required : raw.Permits "required"
        (IsListOf fun item => ∃ property ∈ properties, item = .str property.1)) :
      IsObjectSchema raw

/-! ## Methods and records -/

/-- Parameters have properties, and may label their type. -/
structure IsParameters (raw : Json) : Prop where
  table : ∃ properties, raw.HasProperties properties
  label : raw.Permits "type" IsText

/-- A body names its encoding and has an object schema. -/
structure IsBody (raw : Json) : Prop where
  encoding : raw.Has "encoding" IsText
  schema : raw.Has "schema" IsObjectSchema

/-- A declared error has a name, and may describe itself. -/
structure IsMethodError (raw : Json) : Prop where
  name : raw.Has "name" IsText
  description : raw.Permits "description" IsText

/-- A method may declare parameters, an input, an output and errors. -/
structure IsMethod (raw : Json) : Prop where
  parameters : raw.Permits "parameters" IsParameters
  input : raw.Permits "input" IsBody
  output : raw.Permits "output" IsBody
  errors : raw.Permits "errors" (IsListOf IsMethodError)

/-- A record has an object schema, and may name its key. -/
structure IsRecord (raw : Json) : Prop where
  schema : raw.Has "record" IsObjectSchema
  key : raw.Permits "key" IsText

/-! ## Definitions -/

/-- What a definition holds besides its tag, for each of the nine tags. -/
inductive IsKind (raw : Json) : String → Prop where
  | object (schema : raw.IsObjectSchema) : IsKind raw "object"
  | record (record : raw.IsRecord) : IsKind raw "record"
  | query (method : raw.IsMethod) : IsKind raw "query"
  | procedure (method : raw.IsMethod) : IsKind raw "procedure"
  | bare {tag : String} (known : tag ∈ ["token", "blob", "image", "video", "audio"]) :
      IsKind raw tag

/-- A definition is an object of a known kind, and may have a revision and a description. -/
structure IsDefinition (raw : Json) : Prop where
  kind : ∃ tag, raw.tag? = some tag ∧ raw.IsKind tag
  revision : raw.Permits "revision" IsRevision
  description : raw.Permits "description" IsText

/-! ## Decoding members -/

theorem exists_members_of_tag? {raw : Json} {tag : String} (tagged : raw.tag? = some tag) :
    ∃ members, raw = .obj members := by
  cases raw with
  | obj members => exact ⟨members, rfl⟩
  | _ => cases tagged

theorem IsObjectSchema.exists_members {raw : Json} (isSchema : raw.IsObjectSchema) :
    ∃ members, raw = .obj members := by
  cases isSchema with
  | schema table required =>
      cases raw with
      | obj members => exact ⟨members, rfl⟩
      | _ => cases table.found

theorem permits_obj_iff {members : List (String × Json)} {key : String} {test : Json → Prop} :
    (Json.obj members).Permits key test ↔
      ∀ value, Site.present? members key = some value → test value := by
  rw [Site.present?]
  constructor
  · intro permits
    cases permits with
    | absent missing =>
        rw [member?_obj] at missing
        simp [missing]
    | null found =>
        rw [member?_obj] at found
        simp [found]
    | @passes value found holds =>
        rw [member?_obj] at found
        rw [found]
        cases value <;> simp_all
  · intro passes
    cases found : Table.valueIn key members with
    | none => exact .absent found
    | some value =>
        by_cases null : value = .null
        · exact .null (by rw [member?_obj, found, null])
        · refine .passes found (passes value ?_)
          rw [found]
          cases value <;> simp_all

/-- A list is permitted if the items of its decoding pass the test. -/
theorem permits_listOf_iff {site : Site} {members : List (String × Json)} {key : String}
    {test : Json → Prop} :
    (Json.obj members).Permits key (IsListOf test) ↔
      ∃ items, site.optional members key .list = .ok items ∧
        ∀ item ∈ items.getD [], test item := by
  simp only [permits_obj_iff, Site.optional_eq_ok_iff]
  cases Site.present? members key with
  | none =>
      constructor
      · intro _
        exact ⟨none, .none, by simp⟩
      · intro _ value impossible
        cases impossible
  | some raw =>
      constructor
      · intro passes
        cases passes raw rfl with
        | @arr items inside => exact ⟨some items, .some rfl, inside⟩
      · rintro ⟨items, related, inside⟩ value found
        cases found
        cases related with
        | some listed =>
            cases raw with
            | arr items =>
                cases listed
                exact .arr inside
            | _ => cases listed

end Json

/-- The values that have a shape. -/
def Shape.Fits {α : Type} (shape : Shape α) (value : Json) : Prop :=
  ∃ result, shape.value? value = some result

theorem Shape.fits_text : Shape.text.Fits = Json.IsText := by
  funext value
  apply propext
  constructor
  · rintro ⟨text, found⟩
    rw [Json.text?_eq_some_iff.mp found]
    exact .str text
  · intro isText
    cases isText with
    | str text => exact ⟨text, rfl⟩

theorem Shape.fits_revision : Shape.revision.Fits = Json.IsRevision := by
  funext value
  apply propext
  constructor
  · rintro ⟨revision, found⟩
    cases value with
    | int value => exact .int value
    | bool value => exact .bool value
    | _ => cases found
  · intro isRevision
    cases isRevision with
    | int value => exact ⟨.number value, rfl⟩
    | bool value => exact ⟨.flag value, rfl⟩

namespace Site

theorem succeeds_required_iff {α : Type} {site : Site} {members : List (String × Json)}
    {key : String} {shape : Shape α} :
    Succeeds (site.required members key shape) ↔ (Json.obj members).Has key shape.Fits := by
  simp only [Succeeds, required_eq_ok_iff]
  constructor
  · rintro ⟨result, value, found, shaped⟩
    exact ⟨value, found, result, shaped⟩
  · rintro ⟨value, found, result, shaped⟩
    exact ⟨result, value, found, shaped⟩

theorem succeeds_optional_iff {α : Type} {site : Site} {members : List (String × Json)}
    {key : String} {shape : Shape α} :
    Succeeds (site.optional members key shape) ↔
      (Json.obj members).Permits key shape.Fits := by
  simp only [Succeeds, optional_eq_ok_iff, Json.permits_obj_iff]
  cases present? members key with
  | none =>
      constructor
      · intro _ value impossible
        cases impossible
      · intro _
        exact ⟨none, .none⟩
  | some raw =>
      constructor
      · rintro ⟨found, related⟩ value here
        cases here
        cases related with
        | some shaped => exact ⟨_, shaped⟩
      · intro fits
        obtain ⟨result, shaped⟩ := fits raw rfl
        exact ⟨some result, .some shaped⟩

end Site

theorem succeeds_decodePart_iff {α : Type} {decode : Json → Except Error α}
    {members : List (String × Json)} {key : String} :
    Succeeds (decodePart decode (Site.present? members key)) ↔
      (Json.obj members).Permits key fun raw => Succeeds (decode raw) := by
  rw [Json.permits_obj_iff]
  cases Site.present? members key with
  | none => simp [decodePart]
  | some raw =>
      rw [decodePart]
      simp only [succeeds_bind_iff, succeeds_ok, and_true, ← succeeds_iff, Option.some.injEq,
        forall_eq']

theorem succeeds_taggedMembers_bind_iff {α : Type} {identifier : String} {raw : Json}
    {next : String × List (String × Json) → Except Error α} :
    Succeeds (taggedMembers identifier raw >>= next) ↔
      ∃ tag members, raw = .obj members ∧ raw.tag? = some tag ∧
        Succeeds (next (tag, members)) := by
  rw [succeeds_bind_iff]
  constructor
  · rintro ⟨⟨tag, members⟩, tagged, later⟩
    obtain ⟨object, named⟩ := taggedMembers_eq_ok_iff.mp tagged
    exact ⟨tag, members, object, named, later⟩
  · rintro ⟨tag, members, object, named, later⟩
    exact ⟨(tag, members), taggedMembers_eq_ok_iff.mpr ⟨object, named⟩, later⟩

/-! ## Decoding objects -/

theorem succeeds_decodeChoice_iff {site : Site} {raw : Json} :
    Succeeds (decodeChoice site raw) ↔ raw.IsText := by
  simp only [Succeeds, decodeChoice_eq_ok_iff]
  constructor
  · rintro ⟨choice, rfl⟩
    exact .str choice
  · intro isText
    cases isText with
    | str choice => exact ⟨choice, rfl⟩

theorem Primitive.succeeds_decode_iff {identifier : String} {raw : Json} :
    Succeeds (Primitive.decode identifier raw) ↔ raw.IsProperty := by
  rw [Primitive.decode, succeeds_taggedMembers_bind_iff]
  constructor
  · rintro ⟨tag, members, object, tagged, decoded⟩
    dsimp only at decoded
    split at decoded
    · exact .plain tagged (by simp)
    · exact .plain tagged (by simp)
    · exact .plain tagged (by simp)
    · refine .text tagged ?_
      rw [object, Json.permits_listOf_iff]
      obtain ⟨items, found, chosen⟩ := succeeds_bind_iff.mp decoded
      refine ⟨items, found, ?_⟩
      cases items with
      | none => simp
      | some items =>
          obtain ⟨choices, texts, _⟩ := succeeds_bind_iff.mp chosen
          intro item member
          exact succeeds_decodeChoice_iff.mp
            (succeeds_mapM_iff.mp ⟨choices, texts⟩ item member)
    · exact absurd decoded (not_succeeds_error _)
  · intro isProperty
    cases isProperty with
    | @plain tag tagged known =>
        obtain ⟨members, object⟩ := Json.exists_members_of_tag? tagged
        refine ⟨tag, members, object, tagged, ?_⟩
        simp only [List.mem_cons, List.not_mem_nil, or_false] at known
        rcases known with rfl | rfl | rfl
        · exact succeeds_ok _
        · exact succeeds_ok _
        · exact succeeds_ok _
    | text tagged choices =>
        obtain ⟨members, object⟩ := Json.exists_members_of_tag? tagged
        refine ⟨"string", members, object, tagged, ?_⟩
        rw [object] at choices
        obtain ⟨items, found, inside⟩ := Json.permits_listOf_iff.mp choices
        refine succeeds_bind_iff.mpr ⟨items, found, ?_⟩
        cases items with
        | none => exact succeeds_ok _
        | some items =>
            obtain ⟨choices, texts⟩ := succeeds_mapM_iff.mpr fun item member =>
              succeeds_decodeChoice_iff.mpr (inside item member)
            exact succeeds_bind_iff.mpr ⟨choices, texts, succeeds_ok _⟩

/-- Properties that are decoded are properties, and they keep their names. -/
theorem hasProperties_of_decodeProperties {site : Site} {members : List (String × Json)}
    {table : Table String Primitive} (decoded : decodeProperties site members = .ok table) :
    ∃ properties, (Json.obj members).HasProperties properties ∧
      ∀ name, name ∈ table.keys ↔ name ∈ properties.map Prod.fst := by
  obtain ⟨raws, entries, found, related, rfl⟩ := decodeProperties_eq_ok_iff.mp decoded
  refine ⟨raws, ⟨found, ?_⟩, ?_⟩
  · intro raw member
    obtain ⟨entry, _, decodes⟩ := exists_of_mem_left related member
    exact Primitive.succeeds_decode_iff.mp ⟨entry.2, decodes.2⟩
  · intro name
    rw [Table.mem_keys_ofList, names_of_decodesProperty related]

theorem succeeds_decodeProperties (site : Site) {members : List (String × Json)}
    {properties : List (String × Json)}
    (has : (Json.obj members).HasProperties properties) :
    Succeeds (decodeProperties site members) := by
  have decodes : ∀ raw ∈ properties, Succeeds (decodeProperty site raw) := by
    intro raw member
    obtain ⟨primitive, decoded⟩ := Primitive.succeeds_decode_iff.mpr (has.typed raw member)
    exact ⟨(raw.1, primitive), decodeProperty_eq_ok_iff.mpr ⟨rfl, decoded⟩⟩
  obtain ⟨entries, made⟩ := succeeds_mapM_iff.mpr decodes
  simp only [mapM_eq_ok_iff, decodeProperty_eq_ok_iff] at made
  exact ⟨_, decodeProperties_eq_ok_iff.mpr ⟨properties, entries, has.found, made, rfl⟩⟩

theorem succeeds_decodeRequired_iff (site : Site) {table : Table String Primitive}
    {properties : List (String × Json)}
    (same : ∀ name, name ∈ table.keys ↔ name ∈ properties.map Prod.fst) {raw : Json} :
    Succeeds (decodeRequired site table raw) ↔
      ∃ property ∈ properties, raw = .str property.1 := by
  simp only [Succeeds, decodeRequired_eq_ok_iff, same, List.mem_map]
  constructor
  · rintro ⟨_, rfl, property, member, rfl⟩
    exact ⟨property, member, rfl⟩
  · rintro ⟨property, member, rfl⟩
    exact ⟨property.1, rfl, property, member, rfl⟩

/-- Exactly the object schemas are decoded. -/
theorem ObjectSchema.succeeds_decode_iff {site : Site} {raw : Json} :
    Succeeds (ObjectSchema.decode site raw) ↔ raw.IsObjectSchema := by
  constructor
  · rintro ⟨schema, decoded⟩
    obtain ⟨members, rfl, made, items, listed, named⟩ :=
      ObjectSchema.decode_eq_ok_iff.mp decoded
    obtain ⟨properties, has, same⟩ := hasProperties_of_decodeProperties made
    refine .schema has (Json.permits_listOf_iff.mpr ⟨items, listed, ?_⟩)
    intro item member
    have declared := succeeds_mapM_iff.mp ⟨_, named⟩ item member
    exact (succeeds_decodeRequired_iff site same).mp declared
  · intro isSchema
    obtain ⟨members, rfl⟩ := isSchema.exists_members
    cases isSchema with
    | schema table required =>
        obtain ⟨decoded, made⟩ := succeeds_decodeProperties site table
        obtain ⟨properties, has, same⟩ := hasProperties_of_decodeProperties made
        cases table.found.symm.trans has.found
        obtain ⟨items, listed, inside⟩ := Json.permits_listOf_iff.mp required
        obtain ⟨names, named⟩ := succeeds_mapM_iff.mpr fun item member =>
          (succeeds_decodeRequired_iff site same).mpr (inside item member)
        exact ⟨⟨decoded, names⟩, ObjectSchema.decode_eq_ok_iff.mpr
          ⟨members, rfl, made, items, listed, named⟩⟩

/-! ## Decoding methods and records -/

theorem Body.succeeds_decode_iff {site : Site} {raw : Json} :
    Succeeds (Body.decode site raw) ↔ raw.IsBody := by
  simp only [Succeeds, Body.decode_eq_ok_iff]
  constructor
  · rintro ⟨body, encoding, schema, found, decoded⟩
    exact ⟨⟨_, encoding, .str _⟩,
      ⟨schema, found, ObjectSchema.succeeds_decode_iff.mp ⟨_, decoded⟩⟩⟩
  · rintro ⟨⟨encoding, found, isText⟩, schema, there, isSchema⟩
    cases isText with
    | str encoding =>
        obtain ⟨decoded, made⟩ := ObjectSchema.succeeds_decode_iff.mpr isSchema
        exact ⟨⟨encoding, decoded⟩, found, schema, there, made⟩

theorem Parameters.succeeds_decode_iff {site : Site} {raw : Json} :
    Succeeds (Parameters.decode site raw) ↔ raw.IsParameters := by
  rw [Parameters.decode]
  cases raw with
  | obj members =>
      simp only [Json.members?, succeeds_bind_iff, succeeds_ok, and_true, ← succeeds_iff,
        Site.succeeds_optional_iff, Shape.fits_text]
      constructor
      · rintro ⟨table, made, label⟩
        obtain ⟨properties, has, _⟩ := hasProperties_of_decodeProperties made
        exact ⟨⟨properties, has⟩, label⟩
      · rintro ⟨⟨properties, has⟩, label⟩
        obtain ⟨table, made⟩ := succeeds_decodeProperties site has
        exact ⟨table, made, label⟩
  | _ =>
      constructor
      · intro decoded
        exact absurd decoded (not_succeeds_error _)
      · rintro ⟨⟨properties, has⟩, _⟩
        cases has.found

theorem MethodError.succeeds_decode_iff {site : Site} {raw : Json} :
    Succeeds (MethodError.decode site raw) ↔ raw.IsMethodError := by
  rw [MethodError.decode]
  cases raw with
  | obj members =>
      simp only [Json.members?, succeeds_bind_iff, succeeds_ok, and_true, ← succeeds_iff,
        Site.succeeds_optional_iff, Shape.fits_text, exists_and_right]
      rw [Site.succeeds_required_iff, Shape.fits_text]
      constructor
      · rintro ⟨name, description⟩
        exact ⟨name, description⟩
      · rintro ⟨name, description⟩
        exact ⟨name, description⟩
  | _ =>
      constructor
      · intro decoded
        exact absurd decoded (not_succeeds_error _)
      · rintro ⟨⟨name, found, _⟩, _⟩
        cases found

theorem succeeds_decodeErrors_iff {site : Site} {members : List (String × Json)} {key : String} :
    Succeeds (decodeErrors site (Site.present? members key)) ↔
      (Json.obj members).Permits key (Json.IsListOf Json.IsMethodError) := by
  rw [Json.permits_obj_iff]
  cases Site.present? members key with
  | none => simp [decodeErrors]
  | some raw =>
      simp only [Option.some.injEq, forall_eq']
      cases raw with
      | arr items =>
          simp only [decodeErrors, Json.items?, succeeds_mapM_iff,
            MethodError.succeeds_decode_iff]
          constructor
          · exact .arr
          · intro listed
            cases listed with
            | arr inside => exact inside
      | _ =>
          constructor
          · intro decoded
            exact absurd decoded (not_succeeds_error _)
          · intro listed
            cases listed

theorem Method.succeeds_decode_iff {site : Site} {members : List (String × Json)} :
    Succeeds (Method.decode site members) ↔ (Json.obj members).IsMethod := by
  rw [Method.decode]
  simp only [succeeds_bind_iff, succeeds_ok, and_true, ← succeeds_iff, exists_and_right,
    succeeds_decodeErrors_iff, succeeds_decodePart_iff, Parameters.succeeds_decode_iff,
    Body.succeeds_decode_iff]
  constructor
  · rintro ⟨parameters, input, output, errors⟩
    exact ⟨parameters, input, output, errors⟩
  · rintro ⟨parameters, input, output, errors⟩
    exact ⟨parameters, input, output, errors⟩

theorem RecordSchema.succeeds_decode_iff {site : Site} {members : List (String × Json)} :
    Succeeds (RecordSchema.decode site members) ↔ (Json.obj members).IsRecord := by
  rw [RecordSchema.decode]
  simp only [succeeds_bind_iff, succeeds_ok, and_true, ← succeeds_iff, exists_and_right,
    Site.succeeds_optional_iff, Shape.fits_text, ObjectSchema.succeeds_decode_iff,
    Site.required_eq_ok_iff]
  constructor
  · rintro ⟨own, ⟨value, found, object⟩, isSchema, key⟩
    rw [Json.members?_eq_some_iff.mp object] at found
    exact ⟨⟨.obj own, found, isSchema⟩, key⟩
  · rintro ⟨⟨value, found, isSchema⟩, key⟩
    obtain ⟨own, rfl⟩ := isSchema.exists_members
    exact ⟨own, ⟨_, found, rfl⟩, isSchema, key⟩

/-! ## Decoding definitions -/

theorem Kind.succeeds_decode_iff {identifier tag : String} {members : List (String × Json)} :
    Succeeds (Kind.decode identifier tag members) ↔ (Json.obj members).IsKind tag := by
  constructor
  · intro decoded
    simp only [Kind.decode] at decoded
    split at decoded
    case h_2 =>
      exact .object (ObjectSchema.succeeds_decode_iff.mp (succeeds_map_iff.mp decoded))
    case h_3 =>
      exact .record (RecordSchema.succeeds_decode_iff.mp (succeeds_map_iff.mp decoded))
    case h_4 =>
      exact .query (Method.succeeds_decode_iff.mp (succeeds_map_iff.mp decoded))
    case h_5 =>
      exact .procedure (Method.succeeds_decode_iff.mp (succeeds_map_iff.mp decoded))
    case h_10 => exact absurd decoded (not_succeeds_error _)
    all_goals exact .bare (by simp)
  · intro isKind
    cases isKind with
    | object schema => exact succeeds_map_iff.mpr (ObjectSchema.succeeds_decode_iff.mpr schema)
    | record record => exact succeeds_map_iff.mpr (RecordSchema.succeeds_decode_iff.mpr record)
    | query method => exact succeeds_map_iff.mpr (Method.succeeds_decode_iff.mpr method)
    | procedure method => exact succeeds_map_iff.mpr (Method.succeeds_decode_iff.mpr method)
    | bare known =>
        simp only [List.mem_cons, List.not_mem_nil, or_false] at known
        rcases known with rfl | rfl | rfl | rfl | rfl
        all_goals exact succeeds_ok _

/-- A raw value is decoded, under any id, exactly if it is a definition. -/
theorem Definition.decodes_iff_isDefinition (id : String) (raw : Json) :
    Succeeds (Definition.decode id raw) ↔ raw.IsDefinition := by
  rw [Definition.decode, succeeds_taggedMembers_bind_iff]
  simp only [succeeds_bind_iff, succeeds_ok, and_true, ← succeeds_iff, exists_and_right,
    Kind.succeeds_decode_iff, Site.succeeds_optional_iff, Shape.fits_text,
    Shape.fits_revision]
  constructor
  · rintro ⟨tag, members, object, tagged, kind, revision, description⟩
    subst object
    exact ⟨⟨tag, tagged, kind⟩, revision, description⟩
  · rintro ⟨⟨tag, tagged, kind⟩, revision, description⟩
    obtain ⟨members, rfl⟩ := Json.exists_members_of_tag? tagged
    exact ⟨tag, members, rfl, tagged, kind, revision, description⟩

end LexiconCompiler
