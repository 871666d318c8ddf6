import LexiconCompiler.Module.Struct

/-!
# Constants of a method

Besides its structs, a query or procedure is generated as a group of constants that
share a stem: the class name of the definition in `SCREAMING_SNAKE_CASE`.
-/

namespace LexiconCompiler

/-- The constants generated for a method. -/
structure Constants where
  stem : String
  /-- The id of the definition. -/
  id : String
  /-- The tag of the definition. -/
  kind : String
  description : Option String
  inputEncoding : Option String
  outputEncoding : Option String
  /-- The names of the errors that the method declares. -/
  errors : List String
  deriving DecidableEq, Repr

namespace Definition

/-- The constants generated for a definition, if it is a method. -/
def constants (definition : Definition) : Except Error (Option Constants) :=
  match definition.kind.method? with
  | none => .ok none
  | some method => do
      let stem ← Name.declarable definition.id
        (Name.screamingSnake (Name.className definition.id))
      .ok (some {
        stem
        id := definition.id
        kind := definition.kind.tag
        description := definition.description
        inputEncoding := method.input.map (·.encoding)
        outputEncoding := method.output.map (·.encoding)
        errors := method.errors.map (·.name) })

end Definition

end LexiconCompiler
