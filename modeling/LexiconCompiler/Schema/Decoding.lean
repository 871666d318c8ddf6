import LexiconCompiler.Name.Qualified
import LexiconCompiler.Schema.Member

/-!
# Decoding definitions

A raw definition is decoded after its tag. The members are taken in a fixed order, and
the first one that is missing or not as it should be is reported.
-/

namespace LexiconCompiler

/-- The tag of a raw value and its members. -/
def taggedMembers (identifier : String) (raw : Json) :
    Except Error (String × List (String × Json)) :=
  let site : Site := ⟨identifier, none⟩
  match raw.members? with
  | none => site.fail .definitionNotObject
  | some members =>
      match (Table.valueIn "type" members).bind Json.text? with
      | none => site.fail .missingTag
      | some tag => .ok (tag, members)

/-- A raw choice of a text field. -/
def decodeChoice (site : Site) (raw : Json) : Except Error String :=
  match raw.text? with
  | some choice => .ok choice
  | none => site.fail .choiceNotText

/-- Decode the type of a field. -/
def Primitive.decode (identifier : String) (raw : Json) : Except Error Primitive := do
  let (tag, members) ← taggedMembers identifier raw
  let site : Site := ⟨identifier, some tag⟩
  match tag with
  | "boolean" => .ok .boolean
  | "number" => .ok .number
  | "integer" => .ok .integer
  | "string" => do
      match ← site.optional members "enum" .list with
      | none => .ok (.string none)
      | some raws => do
          let choices ← raws.mapM (decodeChoice site)
          .ok (.string (some choices))
  | _ => .error (site.error .unknownField)

/-- Decode one property of an object. -/
def decodeProperty (site : Site) (entry : String × Json) :
    Except Error (String × Primitive) := do
  let primitive ← Primitive.decode (Name.member site.identifier entry.1) entry.2
  .ok (entry.1, primitive)

/-- Decode the properties among the members of an object. -/
def decodeProperties (site : Site) (members : List (String × Json)) :
    Except Error (Table String Primitive) := do
  let raws ← site.required members "properties" .object
  let properties ← raws.mapM (decodeProperty site)
  .ok (Table.ofList properties)

/-- Decode the name of a property that has to be present. -/
def decodeRequired (site : Site) (properties : Table String Primitive) (raw : Json) :
    Except Error String :=
  match raw.text? with
  | none => site.fail .requiredNotText
  | some name =>
      if (properties.get? name).isSome then .ok name
      else site.fail (.undeclaredRequired name)

/-- Decode an object schema, whose required names have to be among its properties. -/
def ObjectSchema.decode (site : Site) (raw : Json) : Except Error ObjectSchema :=
  match raw.members? with
  | none => site.fail .schemaNotObject
  | some members => do
      let properties ← decodeProperties site members
      let raws ← site.optional members "required" .list
      let required ← (raws.getD []).mapM (decodeRequired site properties)
      .ok { properties, required }

/-- Decode what a method takes or gives. -/
def Body.decode (site : Site) (raw : Json) : Except Error Body :=
  match raw.members? with
  | none => site.fail .bodyNotObject
  | some members => do
      let encoding ← site.required members "encoding" .text
      let schema ← site.required members "schema" .object
      let schema ← ObjectSchema.decode site (.obj schema)
      .ok { encoding, schema }

/-- Decode the parameters of a method. An empty label counts as none. -/
def Parameters.decode (site : Site) (raw : Json) : Except Error Parameters :=
  match raw.members? with
  | none => site.fail .parametersNotObject
  | some members => do
      let properties ← decodeProperties site members
      let label ← site.optional members "type" .text
      let label := (label.filter (· ≠ "")).getD Parameters.defaultLabel
      .ok { label, properties }

/-- Decode one error that a method declares. -/
def MethodError.decode (site : Site) (raw : Json) : Except Error MethodError :=
  match raw.members? with
  | none => site.fail .errorNotObject
  | some members => do
      let name ← site.required members "name" .text
      let description ← site.optional members "description" .text
      .ok { name, description }

/-- Decode the errors that a method declares. -/
def decodeErrors (site : Site) : Option Json → Except Error (List MethodError)
  | none => .ok []
  | some raw =>
      match raw.items? with
      | none => site.fail .errorsNotList
      | some raws => raws.mapM (MethodError.decode site)

/-- Decode a part that may be left out. -/
def decodePart {α : Type} (decode : Json → Except Error α) :
    Option Json → Except Error (Option α)
  | none => .ok none
  | some raw => do
      let part ← decode raw
      .ok (some part)

/-- Decode a method. -/
def Method.decode (site : Site) (members : List (String × Json)) : Except Error Method := do
  let part := Site.present? members
  let parameters ← decodePart (Parameters.decode site) (part "parameters")
  let input ← decodePart (Body.decode site) (part "input")
  let output ← decodePart (Body.decode site) (part "output")
  let errors ← decodeErrors site (part "errors")
  .ok { parameters, input, output, errors }

/-- Decode a record. -/
def RecordSchema.decode (site : Site) (members : List (String × Json)) :
    Except Error RecordSchema := do
  let schema ← site.required members "record" .object
  let schema ← ObjectSchema.decode site (.obj schema)
  let key ← site.optional members "key" .text
  .ok { schema, key }

/-- Decode the kind of a definition after its tag. -/
def Kind.decode (identifier tag : String) (members : List (String × Json)) :
    Except Error Kind :=
  let site : Site := ⟨identifier, some tag⟩
  match tag with
  | "token" => .ok .token
  | "object" => .object <$> ObjectSchema.decode site (.obj members)
  | "record" => .record <$> RecordSchema.decode site members
  | "query" => .query <$> Method.decode site members
  | "procedure" => .procedure <$> Method.decode site members
  | "blob" => .ok .blob
  | "image" => .ok .image
  | "video" => .ok .video
  | "audio" => .ok .audio
  | _ => .error (site.error .unknownKind)

/-- Decode a raw definition into the definition with a given id. -/
def Definition.decode (id : String) (raw : Json) : Except Error Definition := do
  let (tag, members) ← taggedMembers id raw
  let site : Site := ⟨id, some tag⟩
  let kind ← Kind.decode id tag members
  let revision ← site.optional members "revision" .revision
  let description ← site.optional members "description" .text
  .ok { id, kind, revision, description }

end LexiconCompiler
