import LexiconCompiler.Error
import LexiconCompiler.Name.Identifier
import LexiconCompiler.Name.Qualified
import LexiconCompiler.Schema

/-!
# Structs

A definition is generated as structs, each of which becomes a class. The fields that
have to be present come first, since a class may not declare a field with a default
before one without. Names of structs and fields have to be declarable.
-/

namespace LexiconCompiler

namespace Name

/-- A name that can be declared. A name that cannot is reported with its owner, if the
owner has a name itself. -/
def declarable (owner name : String) : Except Error String :=
  if isDeclarable name then .ok name
  else .error {
    cause := .schema (.notDeclarable name)
    identifier := some (if owner = "" then name else member owner name)
    tag := none }

end Name

/-- The Python type of a field. -/
def Primitive.typeName : Primitive → String
  | boolean => "bool"
  | number => "float"
  | integer => "int"
  | string _ => "str"

/-- A field of a struct. -/
structure Field where
  name : String
  typeName : String
  required : Bool
  /-- The values that the field is restricted to, none if it is not restricted. -/
  choices : List String
  deriving DecidableEq, Repr

namespace Field

/-- The field of a property. -/
def ofProperty (owner : String) (schema : ObjectSchema) (entry : String × Primitive) :
    Except Error Field := do
  let name ← Name.declarable owner entry.1
  .ok {
    name
    typeName := entry.2.typeName
    required := schema.requires entry.1
    choices := entry.2.choices?.getD [] }

/-- Fields in the order of a class: those that have to be present, then the others. -/
def requiredFirst (fields : List Field) : List Field :=
  fields.filter (·.required) ++ fields.filter (!·.required)

/-- The fields of an object. -/
def ofSchema (owner : String) (schema : ObjectSchema) : Except Error (List Field) := do
  let fields ← schema.properties.entries.mapM (ofProperty owner schema)
  .ok (requiredFirst fields)

end Field

/-- What is generated as one class. -/
structure Struct where
  name : String
  fields : List Field
  description : Option String
  deriving DecidableEq, Repr

/-- A struct that is still to be checked: its name, its object and its description. -/
structure Struct.Plan where
  name : String
  schema : ObjectSchema
  description : Option String
  deriving DecidableEq, Repr

/-- The struct of a plan, made for the definition `owner`. -/
def Struct.ofPlan (owner : String) (plan : Struct.Plan) : Except Error Struct := do
  let name ← Name.declarable owner plan.name
  let fields ← Field.ofSchema owner plan.schema
  .ok { name, fields, description := plan.description }

namespace Method

/-- The struct of the parameters of a method. -/
def parametersPlan (id : String) (parameters : Parameters) : Struct.Plan where
  name := Name.className id ++ "Params"
  schema := parameters.asObject
  description := some ("Query parameters for " ++ id ++ ".")

/-- The struct of what a method takes. -/
def inputPlan (id : String) (body : Body) : Struct.Plan where
  name := Name.className id ++ "Input"
  schema := body.schema
  description := some ("Input body for " ++ id ++ " (" ++ body.encoding ++ ").")

/-- The struct of what a method gives. -/
def outputPlan (id : String) (body : Body) : Struct.Plan where
  name := Name.className id ++ "Output"
  schema := body.schema
  description := some ("Output body for " ++ id ++ " (" ++ body.encoding ++ ").")

/-- The structs of a method, one for each part that it declares. -/
def plans (id : String) (method : Method) : List Struct.Plan :=
  method.parameters.toList.map (parametersPlan id) ++
    method.input.toList.map (inputPlan id) ++ method.output.toList.map (outputPlan id)

end Method

namespace Definition

/-- The structs that a definition asks for, if anything is generated for its kind. -/
def plans? (definition : Definition) : Option (List Struct.Plan) :=
  match definition.kind with
  | .object schema =>
      some [⟨Name.className definition.id, schema, definition.description⟩]
  | .query method => some (method.plans definition.id)
  | .procedure method => some (method.plans definition.id)
  | _ => none

/-- The structs generated for a definition. -/
def structs (definition : Definition) : Except Error (List Struct) :=
  match definition.plans? with
  | some plans => plans.mapM (Struct.ofPlan definition.id)
  | none => .error {
      cause := .notGenerated
      identifier := some definition.id
      tag := some definition.kind.tag }

end Definition

end LexiconCompiler
