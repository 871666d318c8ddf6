import LexiconCompiler.Error
import LexiconCompiler.Schema

/-!
# Members of raw definitions

A raw definition is decoded member by member. A mandatory member has to be there and
to have its shape; an optional one may also be absent or null. A member that is not as
it should be is reported at the site of the definition.
-/

namespace LexiconCompiler

/-- What is being decoded, as errors name it. -/
structure Site where
  identifier : String
  tag : Option String
  deriving DecidableEq, Repr

namespace Site

/-- An error at a site. -/
def error (site : Site) (cause : Cause) : Error where
  cause := cause
  identifier := some site.identifier
  tag := site.tag

/-- A result of decoding that is a problem at a site. -/
def fail {α : Type} (site : Site) (problem : SchemaProblem) : Except Error α :=
  .error (site.error (.schema problem))

end Site

/-- A shape of JSON values: how messages call it, and what a value of this shape is. -/
structure Shape (α : Type) where
  noun : String
  value? : Json → Option α

namespace Shape

/-- Objects. -/
def object : Shape (List (String × Json)) := ⟨"dict", Json.members?⟩

/-- Arrays. -/
def list : Shape (List Json) := ⟨"list", Json.items?⟩

/-- Strings. -/
def text : Shape String := ⟨"str", Json.text?⟩

/-- Whole numbers, with truth values among them. -/
def revision : Shape Revision where
  noun := "int"
  value?
    | .int value => some (.number value)
    | .bool value => some (.flag value)
    | _ => none

end Shape

namespace Site

/-- A value as a value of a shape, where `key` names the member. -/
def shaped {α : Type} (site : Site) (key : String) (shape : Shape α) (value : Json) :
    Except Error α :=
  match shape.value? value with
  | some result => .ok result
  | none => site.fail (.wrongShape key shape.noun)

/-- A mandatory member. -/
def required {α : Type} (site : Site) (members : List (String × Json)) (key : String)
    (shape : Shape α) : Except Error α :=
  match Table.valueIn key members with
  | none => site.fail (.missingMember key)
  | some value => site.shaped key shape value

/-- The value of a member that is neither absent nor null. -/
def present? (members : List (String × Json)) (key : String) : Option Json :=
  match Table.valueIn key members with
  | none => none
  | some .null => none
  | some value => some value

/-- An optional member. -/
def optional {α : Type} (site : Site) (members : List (String × Json)) (key : String)
    (shape : Shape α) : Except Error (Option α) :=
  match present? members key with
  | none => .ok none
  | some value => do
      let result ← site.shaped key shape value
      .ok (some result)

end Site

end LexiconCompiler
