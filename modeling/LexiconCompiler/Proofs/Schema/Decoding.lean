import LexiconCompiler.Proofs.Schema.Members

/-!
# What decoding reads

For every part of a definition, what its decoding finds in the raw value when it succeeds.
-/

namespace LexiconCompiler

open Traversal

/-! ## Properties -/

theorem decodeChoice_eq_ok_iff {site : Site} {raw : Json} {choice : String} :
    decodeChoice site raw = .ok choice ↔ raw = .str choice := by
  rw [decodeChoice]
  rw [← Json.text?_eq_some_iff]
  cases raw.text? with
  | none =>
      constructor
      · intro equal
        cases equal
      · intro equal
        cases equal
  | some text =>
      constructor
      · intro equal
        cases equal
        rfl
      · intro equal
        cases equal
        rfl

theorem eq_map_str_of_forall₂ {raws : List Json} {texts : List String}
    (related : List.Forall₂ (fun raw text => raw = Json.str text) raws texts) :
    raws = texts.map .str := by
  induction related with
  | nil => rfl
  | cons here there ih => rw [here, ih, List.map_cons]

/-- The items of an optional list are those that its decoding finds. -/
theorem itemsAt_of_optional {site : Site} {members : List (String × Json)} {key : String}
    {items : Option (List Json)} (found : site.optional members key .list = .ok items) :
    (Json.obj members).itemsAt key = items.getD [] := by
  have related := Site.optional_eq_ok_iff.mp found
  rw [Json.itemsAt]
  rw [Json.present?_obj]
  generalize Site.present? members key = value at related
  cases related with
  | none => rfl
  | some shaped =>
      rw [Option.bind_some]
      exact congrArg (Option.getD · []) shaped

/-- A field has the type that its raw value names, and the choices of a text field are the
items of its list. -/
theorem Primitive.reads_of_decode {identifier : String} {raw : Json} {primitive : Primitive}
    (decoded : Primitive.decode identifier raw = .ok primitive) :
    raw.tag? = some primitive.tag ∧
      (primitive.choices?.getD []).map Json.str =
        if primitive.tag = "string" then raw.itemsAt "enum" else [] := by
  obtain ⟨⟨tag, members⟩, tagged, read⟩ := bind_eq_ok_iff.mp decoded
  obtain ⟨rfl, named⟩ := taggedMembers_eq_ok_iff.mp tagged
  rw [named]
  dsimp only at read
  split at read
  · cases read
    exact ⟨rfl, rfl⟩
  · cases read
    exact ⟨rfl, rfl⟩
  · cases read
    exact ⟨rfl, rfl⟩
  · obtain ⟨items, found, chosen⟩ := bind_eq_ok_iff.mp read
    have listed := itemsAt_of_optional found
    cases items with
    | none =>
        cases chosen
        exact ⟨rfl, listed.symm⟩
    | some items =>
        obtain ⟨choices, texts, equal⟩ := bind_eq_ok_iff.mp chosen
        cases equal
        rw [mapM_eq_ok_iff] at texts
        simp only [decodeChoice_eq_ok_iff] at texts
        exact ⟨rfl, (listed.trans (eq_map_str_of_forall₂ texts)).symm⟩
  · cases read

/-- A property is decoded under its own name. -/
def DecodesProperty (site : Site) (raw : String × Json) (entry : String × Primitive) : Prop :=
  entry.1 = raw.1 ∧
    Primitive.decode (Name.member site.identifier raw.1) raw.2 = .ok entry.2

theorem decodeProperty_eq_ok_iff {site : Site} {raw : String × Json}
    {entry : String × Primitive} :
    decodeProperty site raw = .ok entry ↔ DecodesProperty site raw entry := by
  rw [decodeProperty, DecodesProperty]
  rw [bind_eq_ok_iff]
  constructor
  · intro ⟨primitive, decoded, equal⟩
    cases equal
    exact ⟨rfl, decoded⟩
  · intro ⟨named, decoded⟩
    exact ⟨entry.2, decoded, by rw [← named]⟩

theorem decodeProperties_eq_ok_iff {site : Site} {members : List (String × Json)}
    {properties : Table String Primitive} :
    decodeProperties site members = .ok properties ↔
      ∃ raws entries, Table.valueIn "properties" members = some (.obj raws) ∧
        List.Forall₂ (DecodesProperty site) raws entries ∧
        properties = Table.ofList entries := by
  rw [decodeProperties]
  simp only [bind_eq_ok_iff, Site.required_eq_ok_iff, mapM_eq_ok_iff,
    decodeProperty_eq_ok_iff]
  constructor
  · intro ⟨raws, ⟨value, found, shaped⟩, entries, decoded, equal⟩
    cases equal
    rw [Json.members?_eq_some_iff.mp shaped] at found
    exact ⟨raws, entries, found, decoded, rfl⟩
  · intro ⟨raws, entries, found, decoded, equal⟩
    subst equal
    exact ⟨raws, ⟨.obj raws, found, rfl⟩, entries, decoded, rfl⟩

theorem names_of_decodesProperty {site : Site} {raws : List (String × Json)}
    {entries : List (String × Primitive)}
    (decoded : List.Forall₂ (DecodesProperty site) raws entries) :
    entries.map Prod.fst = raws.map Prod.fst := by
  induction decoded with
  | nil => rfl
  | cons here there ih => rw [List.map_cons, List.map_cons, here.1, ih]

/-- Properties with distinct names are decoded one by one, in order. -/
theorem entries_of_decodeProperties {site : Site} {members : List (String × Json)}
    {properties : Table String Primitive} (clear : (Json.obj members).Unambiguous)
    (decoded : decodeProperties site members = .ok properties) :
    ∃ raws, Table.valueIn "properties" members = some (.obj raws) ∧
      List.Forall₂ (DecodesProperty site) raws properties.entries := by
  obtain ⟨raws, entries, found, related, rfl⟩ := decodeProperties_eq_ok_iff.mp decoded
  have distinct : (raws.map Prod.fst).Nodup := by
    have here : (Json.obj members).member? "properties" = some (.obj raws) := found
    cases clear.member here with
    | obj distinct _ => exact distinct
  rw [← names_of_decodesProperty related] at distinct
  rw [Table.entries_ofList distinct]
  exact ⟨raws, found, related⟩

/-! ## Objects, bodies and parameters -/

theorem decodeRequired_eq_ok_iff {site : Site} {properties : Table String Primitive}
    {raw : Json} {name : String} :
    decodeRequired site properties raw = .ok name ↔
      raw = .str name ∧ name ∈ properties.keys := by
  rw [decodeRequired]
  rw [← Json.text?_eq_some_iff]
  cases raw.text? with
  | none =>
      constructor
      · intro equal
        cases equal
      · intro ⟨impossible, _⟩
        cases impossible
  | some text =>
      dsimp only
      split
      · rename_i declared
        constructor
        · intro equal
          cases equal
          exact ⟨rfl, Table.isSome_get?_iff.mp declared⟩
        · intro ⟨equal, _⟩
          cases equal
          rfl
      · rename_i undeclared
        constructor
        · intro equal
          cases equal
        · intro ⟨equal, declared⟩
          cases equal
          exact absurd (Table.isSome_get?_iff.mpr declared) undeclared

theorem ObjectSchema.decode_eq_ok_iff {site : Site} {raw : Json} {schema : ObjectSchema} :
    ObjectSchema.decode site raw = .ok schema ↔
      ∃ members, raw = .obj members ∧ decodeProperties site members = .ok schema.properties ∧
        ∃ raws, site.optional members "required" .list = .ok raws ∧
          (raws.getD []).mapM (decodeRequired site schema.properties) = .ok schema.required := by
  rw [ObjectSchema.decode]
  cases raw with
  | obj own =>
      simp only [Json.members?, bind_eq_ok_iff, Json.obj.injEq]
      constructor
      · intro made
        obtain ⟨properties, decoded, raws, listed, required, named, equal⟩ := made
        cases equal
        exact ⟨own, rfl, decoded, raws, listed, named⟩
      · intro made
        obtain ⟨members, same, decoded, raws, listed, named⟩ := made
        cases same
        exact ⟨schema.properties, decoded, raws, listed, schema.required, named, rfl⟩
  | _ =>
      constructor
      · intro equal
        cases equal
      · intro found
        obtain ⟨members, impossible, _⟩ := found
        cases impossible

/-- The required names of an object are the items of its list. -/
theorem ObjectSchema.itemsAt_required {site : Site} {raw : Json} {schema : ObjectSchema}
    (decoded : ObjectSchema.decode site raw = .ok schema) :
    raw.itemsAt "required" = schema.required.map .str := by
  obtain ⟨members, rfl, _, raws, listed, named⟩ := ObjectSchema.decode_eq_ok_iff.mp decoded
  rw [itemsAt_of_optional listed]
  refine eq_map_str_of_forall₂ ((mapM_eq_ok_iff.mp named).imp ?_)
  intro raw name found
  exact (decodeRequired_eq_ok_iff.mp found).1

theorem Body.decode_eq_ok_iff {site : Site} {raw : Json} {body : Body} :
    Body.decode site raw = .ok body ↔
      raw.member? "encoding" = some (.str body.encoding) ∧
        ∃ schema, raw.member? "schema" = some schema ∧
          ObjectSchema.decode site schema = .ok body.schema := by
  rw [Body.decode]
  cases raw with
  | obj members =>
      simp only [Json.members?, bind_eq_ok_iff, Site.required_eq_ok_iff, Json.member?_obj]
      constructor
      · intro made
        obtain ⟨encoding, ⟨first, found, text⟩, own, ⟨second, there, object⟩, schema,
          decoded, equal⟩ := made
        cases equal
        rw [Json.text?_eq_some_iff.mp text] at found
        rw [Json.members?_eq_some_iff.mp object] at there
        exact ⟨found, .obj own, there, decoded⟩
      · intro made
        obtain ⟨found, schema, there, decoded⟩ := made
        obtain ⟨own, rfl, _⟩ := ObjectSchema.decode_eq_ok_iff.mp decoded
        exact ⟨body.encoding, ⟨_, found, rfl⟩, own, ⟨_, there, rfl⟩, body.schema, decoded, rfl⟩
  | _ =>
      constructor
      · intro equal
        cases equal
      · intro found
        obtain ⟨impossible, _⟩ := found
        cases impossible

theorem Parameters.decode_eq_ok {site : Site} {raw : Json} {parameters : Parameters}
    (decoded : Parameters.decode site raw = .ok parameters) :
    ∃ members, raw = .obj members ∧
      decodeProperties site members = .ok parameters.properties := by
  rw [Parameters.decode] at decoded
  cases split : raw.members? with
  | none =>
      rw [split] at decoded
      cases decoded
  | some members =>
      rw [split] at decoded
      obtain ⟨properties, found, decoded⟩ := bind_eq_ok_iff.mp decoded
      obtain ⟨label, _, equal⟩ := bind_eq_ok_iff.mp decoded
      cases equal
      exact ⟨members, Json.members?_eq_some_iff.mp split, found⟩

/-! ## Methods and definitions -/

theorem Method.decode_eq_ok_iff {site : Site} {members : List (String × Json)}
    {method : Method} :
    Method.decode site members = .ok method ↔
      Option.Rel (fun raw part => Parameters.decode site raw = .ok part)
          (Site.present? members "parameters") method.parameters ∧
        Option.Rel (fun raw part => Body.decode site raw = .ok part)
          (Site.present? members "input") method.input ∧
        Option.Rel (fun raw part => Body.decode site raw = .ok part)
          (Site.present? members "output") method.output ∧
        decodeErrors site (Site.present? members "errors") = .ok method.errors := by
  rw [Method.decode]
  simp only [bind_eq_ok_iff, decodePart_eq_ok_iff]
  constructor
  · intro ⟨parameters, first, input, second, output, third, errors, fourth, equal⟩
    cases equal
    exact ⟨first, second, third, fourth⟩
  · intro ⟨first, second, third, fourth⟩
    exact ⟨_, first, _, second, _, third, _, fourth, rfl⟩

/-- A definition is decoded after its tag. -/
theorem Definition.decode_eq_ok {id : String} {raw : Json} {definition : Definition}
    (decoded : Definition.decode id raw = .ok definition) :
    ∃ tag members, raw = .obj members ∧ raw.tag? = some tag ∧ definition.id = id ∧
      Kind.decode id tag members = .ok definition.kind := by
  obtain ⟨⟨tag, members⟩, tagged, decoded⟩ := bind_eq_ok_iff.mp decoded
  obtain ⟨object, named⟩ := taggedMembers_eq_ok_iff.mp tagged
  obtain ⟨kind, kindDecoded, decoded⟩ := bind_eq_ok_iff.mp decoded
  obtain ⟨revision, _, decoded⟩ := bind_eq_ok_iff.mp decoded
  obtain ⟨description, _, equal⟩ := bind_eq_ok_iff.mp decoded
  cases equal
  exact ⟨tag, members, object, named, rfl, kindDecoded⟩

end LexiconCompiler
