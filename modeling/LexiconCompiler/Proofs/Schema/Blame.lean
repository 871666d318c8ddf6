import LexiconCompiler.Proofs.Schema.Members

/-!
# What errors of decoding are about

An error of decoding names the definition that is decoded, or one property of a table that
stands at a known place in the definition: in an object, in a record, in the parameters of a
method, or in the schema of what a method takes or gives.
-/

namespace LexiconCompiler

open Traversal

/-- The property tables of a raw definition, by its tag. -/
inductive Json.HasPropertyTable (raw : Json) (properties : List (String × Json)) : Prop where
  | object (tagged : raw.tag? = some "object")
      (table : raw.member? "properties" = some (.obj properties)) :
      HasPropertyTable raw properties
  | record {schema : Json} (tagged : raw.tag? = some "record")
      (found : raw.member? "record" = some schema)
      (table : schema.member? "properties" = some (.obj properties)) :
      HasPropertyTable raw properties
  | parameters {part : Json} (tagged : raw.tag? = some "query" ∨ raw.tag? = some "procedure")
      (found : raw.member? "parameters" = some part)
      (table : part.member? "properties" = some (.obj properties)) :
      HasPropertyTable raw properties
  | body {key : String} {part schema : Json}
      (tagged : raw.tag? = some "query" ∨ raw.tag? = some "procedure")
      (known : key ∈ ["input", "output"]) (found : raw.member? key = some part)
      (inside : part.member? "schema" = some schema)
      (table : schema.member? "properties" = some (.obj properties)) :
      HasPropertyTable raw properties

/-- An error is about the definition of an id, or about a property of one of some tables, the
type of which cannot be decoded. -/
inductive Blames (id : String) (tables : List (String × Json) → Prop) (error : Error) : Prop where
  | definition (named : error.identifier = some id) : Blames id tables error
  | property {properties : List (String × Json)} {property : String × Json}
      (table : tables properties) (member : property ∈ properties)
      (failed : Primitive.decode (Name.member id property.1) property.2 = .error error)
      (named : error.identifier = some (Name.member id property.1)) : Blames id tables error

/-- A computation fails only with errors about a definition or the properties of some
tables. -/
def BlamesOnly {α : Type} (id : String) (tables : List (String × Json) → Prop)
    (outcome : Except Error α) : Prop :=
  ∀ error, outcome = .error error → Blames id tables error

section

variable {α β : Type} {id : String} {tables : List (String × Json) → Prop} {site : Site}

/-! ## Computations -/

namespace BlamesOnly

theorem ok (result : α) : BlamesOnly id tables (.ok result) := by
  intro error failed
  cases failed

theorem error {failure : Error} (named : failure.identifier = some id) :
    BlamesOnly id tables (.error failure : Except Error α) := by
  intro error failed
  cases failed
  exact .definition named

theorem bind {first : Except Error α} {next : α → Except Error β}
    (here : BlamesOnly id tables first)
    (there : ∀ middle, first = .ok middle → BlamesOnly id tables (next middle)) :
    BlamesOnly id tables (first >>= next) := by
  intro error failed
  rcases bind_eq_error_iff.mp failed with failed | ⟨middle, made, failed⟩
  · exact here error failed
  · exact there middle made error failed

theorem map {first : Except Error α} (only : BlamesOnly id tables first) (image : α → β) :
    BlamesOnly id tables (image <$> first) := by
  intro error failed
  exact only error (map_eq_error_iff.mp failed)

theorem mapM {items : List α} {step : α → Except Error β}
    (each : ∀ item ∈ items, BlamesOnly id tables (step item)) :
    BlamesOnly id tables (items.mapM step) := by
  intro error failed
  obtain ⟨before, item, after, rfl, _, here⟩ := mapM_eq_error_iff.mp failed
  exact each item (by simp) error here

end BlamesOnly

/-! ## Members -/

theorem blamesOnly_fail (problem : SchemaProblem) :
    BlamesOnly site.identifier tables (site.fail problem : Except Error α) :=
  .error rfl

theorem blamesOnly_shaped (key : String) (shape : Shape α) (value : Json) :
    BlamesOnly site.identifier tables (site.shaped key shape value) := by
  rw [Site.shaped]
  split
  · exact .ok _
  · exact blamesOnly_fail _

theorem blamesOnly_required (members : List (String × Json)) (key : String) (shape : Shape α) :
    BlamesOnly site.identifier tables (site.required members key shape) := by
  rw [Site.required]
  split
  · exact blamesOnly_fail _
  · exact blamesOnly_shaped key shape _

theorem blamesOnly_optional (site : Site) (members : List (String × Json)) (key : String)
    (shape : Shape α) :
    BlamesOnly site.identifier tables (site.optional members key shape) := by
  rw [Site.optional]
  split
  · exact .ok _
  · exact (blamesOnly_shaped key shape _).bind fun _ _ => .ok _

theorem blamesOnly_taggedMembers (raw : Json) :
    BlamesOnly id tables (taggedMembers id raw) := by
  rw [taggedMembers]
  split
  · exact .error rfl
  · split
    · exact .error rfl
    · exact .ok _

/-! ## Properties -/

theorem blamesOnly_decodeChoice (raw : Json) :
    BlamesOnly site.identifier tables (decodeChoice site raw) := by
  rw [decodeChoice]
  split
  · exact .ok _
  · exact blamesOnly_fail _

/-- The type of a field is decoded under one identifier, which every error names. -/
theorem Primitive.identifier_of_decode_eq_error {raw : Json} {error : Error}
    (failed : Primitive.decode id raw = .error error) : error.identifier = some id := by
  have only : BlamesOnly id (fun _ => False) (Primitive.decode id raw) := by
    refine (blamesOnly_taggedMembers raw).bind fun ⟨tag, members⟩ _ => ?_
    dsimp only
    split
    · exact .ok _
    · exact .ok _
    · exact .ok _
    · refine (blamesOnly_optional ⟨id, some "string"⟩ members "enum" .list).bind ?_
      intro items _
      cases items with
      | none => exact .ok _
      | some raws =>
          have each : BlamesOnly id (fun _ => False)
              (raws.mapM (decodeChoice ⟨id, some "string"⟩)) :=
            .mapM fun raw _ => blamesOnly_decodeChoice raw
          exact each.bind fun _ _ => .ok _
    · exact .error rfl
  cases only error failed with
  | definition named => exact named
  | property none _ _ _ => exact none.elim

theorem blamesOnly_decodeProperties {members : List (String × Json)}
    (known : ∀ properties, Table.valueIn "properties" members = some (.obj properties) →
      tables properties) :
    BlamesOnly site.identifier tables (decodeProperties site members) := by
  refine (blamesOnly_required members "properties" .object).bind fun raws found => ?_
  obtain ⟨value, here, object⟩ := Site.required_eq_ok_iff.mp found
  rw [Json.members?_eq_some_iff.mp object] at here
  refine BlamesOnly.bind (.mapM fun property member => ?_) fun _ _ => .ok _
  refine BlamesOnly.bind ?_ fun _ _ => .ok _
  intro error failed
  exact .property (known raws here) member failed
    (Primitive.identifier_of_decode_eq_error failed)

/-! ## Objects, bodies and parameters -/

theorem blamesOnly_decodeRequired (properties : Table String Primitive) (raw : Json) :
    BlamesOnly site.identifier tables (decodeRequired site properties raw) := by
  rw [decodeRequired]
  split
  · exact blamesOnly_fail _
  · split
    · exact .ok _
    · exact blamesOnly_fail _

theorem ObjectSchema.blamesOnly_decode {raw : Json}
    (known : ∀ properties, raw.member? "properties" = some (.obj properties) →
      tables properties) :
    BlamesOnly site.identifier tables (ObjectSchema.decode site raw) := by
  rw [ObjectSchema.decode]
  split
  · exact blamesOnly_fail _
  · rename_i members object
    rw [Json.members?_eq_some_iff.mp object] at known
    refine (blamesOnly_decodeProperties known).bind fun properties _ => ?_
    refine (blamesOnly_optional site members "required" .list).bind fun raws _ => ?_
    exact BlamesOnly.bind (.mapM fun raw _ => blamesOnly_decodeRequired properties raw)
      fun _ _ => .ok _

theorem Body.blamesOnly_decode {raw : Json}
    (known : ∀ schema properties, raw.member? "schema" = some schema →
      schema.member? "properties" = some (.obj properties) → tables properties) :
    BlamesOnly site.identifier tables (Body.decode site raw) := by
  rw [Body.decode]
  split
  · exact blamesOnly_fail _
  · rename_i members object
    rw [Json.members?_eq_some_iff.mp object] at known
    refine (blamesOnly_required members "encoding" .text).bind fun encoding _ => ?_
    refine (blamesOnly_required members "schema" .object).bind fun own found => ?_
    obtain ⟨schema, here, inside⟩ := Site.required_eq_ok_iff.mp found
    rw [Json.members?_eq_some_iff.mp inside] at here
    exact (ObjectSchema.blamesOnly_decode fun properties => known (.obj own) properties here).bind
      fun _ _ => .ok _

theorem Parameters.blamesOnly_decode {raw : Json}
    (known : ∀ properties, raw.member? "properties" = some (.obj properties) →
      tables properties) :
    BlamesOnly site.identifier tables (Parameters.decode site raw) := by
  rw [Parameters.decode]
  split
  · exact blamesOnly_fail _
  · rename_i members object
    rw [Json.members?_eq_some_iff.mp object] at known
    refine (blamesOnly_decodeProperties known).bind fun properties _ => ?_
    exact (blamesOnly_optional site members "type" .text).bind fun _ _ => .ok _

/-! ## Methods and records -/

theorem MethodError.blamesOnly_decode (raw : Json) :
    BlamesOnly site.identifier tables (MethodError.decode site raw) := by
  rw [MethodError.decode]
  split
  · exact blamesOnly_fail _
  · rename_i members _
    refine (blamesOnly_required members "name" .text).bind fun name _ => ?_
    exact (blamesOnly_optional site members "description" .text).bind fun _ _ => .ok _

theorem blamesOnly_decodeErrors (raw : Option Json) :
    BlamesOnly site.identifier tables (decodeErrors site raw) := by
  cases raw with
  | none => exact .ok _
  | some raw =>
      rw [decodeErrors]
      split
      · exact blamesOnly_fail _
      · exact .mapM fun raw _ => MethodError.blamesOnly_decode raw

theorem blamesOnly_decodePart {decode : Json → Except Error α} {part : Option Json}
    (each : ∀ raw, part = some raw → BlamesOnly id tables (decode raw)) :
    BlamesOnly id tables (decodePart decode part) := by
  cases part with
  | none => exact .ok _
  | some raw => exact (each raw rfl).bind fun _ _ => .ok _

theorem Method.blamesOnly_decode (site : Site) {members : List (String × Json)}
    (tagged : (Json.obj members).tag? = some "query" ∨
      (Json.obj members).tag? = some "procedure") :
    BlamesOnly site.identifier (Json.obj members).HasPropertyTable
      (Method.decode site members) := by
  have body : ∀ key ∈ ["input", "output"], BlamesOnly site.identifier
      (Json.obj members).HasPropertyTable
      (decodePart (Body.decode site) (Site.present? members key)) := by
    intro key known
    refine blamesOnly_decodePart fun raw present => Body.blamesOnly_decode ?_
    intro schema properties inside table
    exact .body tagged known (Json.member?_of_present? present) inside table
  have parameters : BlamesOnly site.identifier (Json.obj members).HasPropertyTable
      (decodePart (Parameters.decode site) (Site.present? members "parameters")) := by
    refine blamesOnly_decodePart fun raw present => Parameters.blamesOnly_decode ?_
    intro properties table
    exact .parameters tagged (Json.member?_of_present? present) table
  refine parameters.bind fun _ _ => ?_
  refine (body "input" (by simp)).bind fun _ _ => ?_
  refine (body "output" (by simp)).bind fun _ _ => ?_
  exact (blamesOnly_decodeErrors _).bind fun _ _ => .ok _

theorem RecordSchema.blamesOnly_decode (site : Site) {members : List (String × Json)}
    (tagged : (Json.obj members).tag? = some "record") :
    BlamesOnly site.identifier (Json.obj members).HasPropertyTable
      (RecordSchema.decode site members) := by
  refine (blamesOnly_required members "record" .object).bind fun own found => ?_
  obtain ⟨schema, here, object⟩ := Site.required_eq_ok_iff.mp found
  rw [Json.members?_eq_some_iff.mp object] at here
  refine (ObjectSchema.blamesOnly_decode fun properties => .record tagged here).bind ?_
  intro _ _
  exact (blamesOnly_optional site members "key" .text).bind fun _ _ => .ok _

/-! ## Definitions -/

theorem Kind.blamesOnly_decode {tag : String} {members : List (String × Json)}
    (tagged : (Json.obj members).tag? = some tag) :
    BlamesOnly id (Json.obj members).HasPropertyTable (Kind.decode id tag members) := by
  simp only [Kind.decode]
  split
  case h_2 =>
    have schema : BlamesOnly id (Json.obj members).HasPropertyTable
        (ObjectSchema.decode ⟨id, some "object"⟩ (.obj members)) :=
      ObjectSchema.blamesOnly_decode fun properties => .object tagged
    exact schema.map _
  case h_3 =>
    exact BlamesOnly.map (RecordSchema.blamesOnly_decode ⟨id, some "record"⟩ tagged) _
  case h_4 =>
    exact BlamesOnly.map
      (Method.blamesOnly_decode ⟨id, some "query"⟩ (.inl tagged)) _
  case h_5 =>
    exact BlamesOnly.map
      (Method.blamesOnly_decode ⟨id, some "procedure"⟩ (.inr tagged)) _
  case h_10 => exact .error rfl
  all_goals exact .ok _

/-- An error of a definition is about the definition or a property of one of its tables. -/
theorem Definition.blamesOnly_decode (id : String) (raw : Json) :
    BlamesOnly id raw.HasPropertyTable (Definition.decode id raw) := by
  refine (blamesOnly_taggedMembers raw).bind fun ⟨tag, members⟩ found => ?_
  obtain ⟨rfl, tagged⟩ := taggedMembers_eq_ok_iff.mp found
  refine (Kind.blamesOnly_decode tagged).bind fun kind _ => ?_
  refine (blamesOnly_optional ⟨id, some tag⟩ members "revision" .revision).bind ?_
  intro _ _
  refine (blamesOnly_optional ⟨id, some tag⟩ members "description" .text).bind ?_
  intro _ _
  exact .ok _

end

end LexiconCompiler
