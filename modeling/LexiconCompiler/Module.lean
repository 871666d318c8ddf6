import LexiconCompiler.Module.Constants
import LexiconCompiler.Path

/-!
# Modules

All definitions of a document are generated as one module. The definitions are taken in
order, and each class name and each stem of constants belongs to the first definition
that asks for it: a second one would replace what the first declares. The id of the
document decides where its module is written.
-/

namespace LexiconCompiler

/-- What is generated for a list of definitions. -/
structure Module where
  /-- The id that the module is generated from. -/
  sourceId : String
  structs : List Struct
  methods : List Constants
  deriving DecidableEq, Repr

namespace Module

/-- Whether some field of a module may be absent. -/
def hasOptionalField (generated : Module) : Bool :=
  generated.structs.any fun struct => struct.fields.any fun field => !field.required

/-- How many structs a module declares. -/
def structCount (generated : Module) : Nat :=
  generated.structs.length

/-- A module under construction. -/
structure Draft where
  structs : List Struct
  methods : List Constants
  /-- The id of the definition that each generated name belongs to. -/
  owners : Table Name.Generated String
  deriving DecidableEq, Repr

namespace Draft

/-- The module before any definition. -/
def empty : Draft where
  structs := []
  methods := []
  owners := .empty

/-- Give a name to a definition, unless it belongs to one already. -/
def claim (draft : Draft) (definition : Definition) (name : Name.Generated) :
    Except Error (Table Name.Generated String) :=
  match draft.owners.get? name with
  | none => .ok (draft.owners.insert name definition.id)
  | some owner => .error {
      cause := .schema (.alreadyGenerated name owner)
      identifier := some definition.id
      tag := some definition.kind.tag }

/-- Add a struct of a definition. -/
def addStruct (definition : Definition) (draft : Draft) (struct : Struct) :
    Except Error Draft := do
  let owners ← draft.claim definition (.ofClass struct.name)
  .ok { draft with owners, structs := draft.structs ++ [struct] }

/-- Add the constants of a definition, if it has any. -/
def addConstants (definition : Definition) (draft : Draft) :
    Option Constants → Except Error Draft
  | none => .ok draft
  | some constants => do
      let owners ← draft.claim definition (.ofConstants constants.stem)
      .ok { draft with owners, methods := draft.methods ++ [constants] }

/-- Add everything that is generated for a definition. -/
def add (draft : Draft) (definition : Definition) : Except Error Draft := do
  let structs ← definition.structs
  let draft ← structs.foldlM (addStruct definition) draft
  let constants ← definition.constants
  draft.addConstants definition constants

end Draft

/-- The module generated for a list of definitions. -/
def ofDefinitions (sourceId : String) (definitions : List Definition) :
    Except Error Module := do
  let draft ← definitions.foldlM Draft.add .empty
  .ok { sourceId, structs := draft.structs, methods := draft.methods }

/-! ## Paths -/

/-- The name of the file for the last segment of an id. -/
def fileName (segment : String) : String :=
  Name.snake segment ++ ".py"

/-- The path of the module for an id: a directory for every segment but the last, and a
file named by the last one in `snake_case`. -/
def path (id : String) (root : Path) : Path :=
  let names := (Name.segments id).dropLast ++ [fileName (Name.lastSegment id)]
  names.foldl (fun path name => path.join (.ofString name)) root

end Module

end LexiconCompiler
