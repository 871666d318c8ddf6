import LexiconCompiler.Json
import LexiconCompiler.Table

/-!
# Lexicon schemas

A lexicon document groups definitions under one id. Each definition has a kind: an
object or a record with typed fields, a method that is called over the network, a
bare token, or a kind of media. The fields of objects are leaves; objects are not
nested.
-/

namespace LexiconCompiler

/-- The type of a field. -/
inductive Primitive where
  | boolean
  | number
  | integer
  /-- Text, perhaps one of some choices. -/
  | string (choices : Option (List String))
  deriving DecidableEq, Repr

namespace Primitive

/-- The tag that names a type in a document. -/
def tag : Primitive → String
  | boolean => "boolean"
  | number => "number"
  | integer => "integer"
  | string _ => "string"

/-- The choices of a field, if its type lists any. -/
def choices? : Primitive → Option (List String)
  | string choices => choices
  | _ => none

end Primitive

/-- The fields of an object and the names of those that have to be present. -/
structure ObjectSchema where
  properties : Table String Primitive
  required : List String
  deriving DecidableEq, Repr

namespace ObjectSchema

/-- Whether a field has to be present. -/
def requires (schema : ObjectSchema) (name : String) : Bool :=
  schema.required.contains name

end ObjectSchema

/-- An object that is stored under a key. -/
structure RecordSchema where
  schema : ObjectSchema
  key : Option String
  deriving DecidableEq, Repr

/-- The parameters of a method. -/
structure Parameters where
  /-- The name that the document gives to the type of the parameters. -/
  label : String
  properties : Table String Primitive
  deriving DecidableEq, Repr

namespace Parameters

/-- The label of parameters to which the document gives none. -/
def defaultLabel : String := "params"

/-- Parameters as an object, all of whose fields have to be present. -/
def asObject (parameters : Parameters) : ObjectSchema where
  properties := parameters.properties
  required := parameters.properties.keys

end Parameters

/-- What a method takes or gives: an object and how it is encoded. -/
structure Body where
  encoding : String
  schema : ObjectSchema
  deriving DecidableEq, Repr

/-- An error that a method declares. -/
structure MethodError where
  name : String
  description : Option String
  deriving DecidableEq, Repr

/-- A method that is called over the network. -/
structure Method where
  parameters : Option Parameters
  input : Option Body
  output : Option Body
  errors : List MethodError
  deriving DecidableEq, Repr

/-- The kinds of definition. -/
inductive Kind where
  | token
  | object (schema : ObjectSchema)
  | record (record : RecordSchema)
  /-- A method that only reads. -/
  | query (method : Method)
  /-- A method that may change something. -/
  | procedure (method : Method)
  | blob
  | image
  | video
  | audio
  deriving DecidableEq, Repr

namespace Kind

/-- The tag that names a kind in a document. -/
def tag : Kind → String
  | token => "token"
  | object _ => "object"
  | record _ => "record"
  | query _ => "query"
  | procedure _ => "procedure"
  | blob => "blob"
  | image => "image"
  | video => "video"
  | audio => "audio"

/-- The method of a query or a procedure. -/
def method? : Kind → Option Method
  | query method => some method
  | procedure method => some method
  | _ => none

end Kind

/-- The revision of a definition. A truth value is accepted for a number and kept as
it is. -/
inductive Revision where
  | number (value : Int)
  | flag (value : Bool)
  deriving DecidableEq, Repr

/-- One definition, named by its full id. -/
structure Definition where
  id : String
  kind : Kind
  revision : Option Revision
  description : Option String
  deriving DecidableEq, Repr

/-- A lexicon document, whose definitions are not decoded yet. -/
structure Document where
  /-- The version of the schema language. -/
  version : Int
  id : String
  description : Option String
  definitions : Table String Json

end LexiconCompiler
