import LexiconCompiler.Encoding
import LexiconCompiler.Json.Refusal
import LexiconCompiler.Name.Qualified
import LexiconCompiler.Report
import LexiconCompiler.Text.Quoted

/-!
# Errors

Whatever is wrong with a document or a definition ends the compilation. An error holds
its cause, the identifier of what is at fault (a document, a definition or a file) and,
where there is one, the tag of the definition. The cause decides the category and the
wording.
-/

namespace LexiconCompiler

/-- What is wrong with a document as a whole. -/
inductive DocumentProblem where
  | undecodable (fault : Encoding.Fault)
  | misplaced (complaint : Json.Complaint) (place : Json.Place)
  | tooDeep (container : Json.Container)
  | notObject
  | missingField (key : String)
  | versionNotInteger
  | idNotText
  | definitionsNotObject
  | descriptionNotText
  deriving DecidableEq, Repr

namespace DocumentProblem

/-- The wording of a problem with a document. -/
def message : DocumentProblem → String
  | undecodable fault => "invalid JSON: " ++ fault.message
  | misplaced complaint place =>
      "invalid JSON: " ++ complaint.message ++ ": " ++ place.describe
  | tooDeep container =>
      "invalid JSON: maximum recursion depth exceeded while decoding a JSON " ++
        container.noun ++ " from a unicode string"
  | notObject => "document must be a JSON object"
  | missingField key => "missing " ++ Text.quoted key ++ " field"
  | versionNotInteger => "'lexicon' must be an integer"
  | idNotText => "'id' must be a non-empty string"
  | definitionsNotObject => "'defs' must be a non-empty object"
  | descriptionNotText => "'description' must be a string"

end DocumentProblem

/-- What is wrong with a part of a definition. -/
inductive SchemaProblem where
  | definitionNotObject
  | missingTag
  | missingMember (key : String)
  | wrongShape (key shape : String)
  | choiceNotText
  | schemaNotObject
  | requiredNotText
  | undeclaredRequired (name : String)
  | bodyNotObject
  | parametersNotObject
  | errorsNotList
  | errorNotObject
  | notDeclarable (name : String)
  | alreadyGenerated (name : Name.Generated) (owner : String)
  deriving DecidableEq, Repr

namespace SchemaProblem

/-- The wording of a problem with a definition. -/
def message : SchemaProblem → String
  | definitionNotObject => "definition must be a JSON object"
  | missingTag => "missing 'type' tag"
  | missingMember key => "missing " ++ Text.quoted key
  | wrongShape key shape => Text.quoted key ++ " must be " ++ shape
  | choiceNotText => "'enum' values must be strings"
  | schemaNotObject => "object schema must be a JSON object"
  | requiredNotText => "'required' entries must be strings"
  | undeclaredRequired name =>
      "required field " ++ Text.quoted name ++ " is not declared in 'properties'"
  | bodyNotObject => "body must be a JSON object"
  | parametersNotObject => "'parameters' must be a JSON object"
  | errorsNotList => "'errors' must be a list"
  | errorNotObject => "error entries must be JSON objects"
  | notDeclarable name => Text.quoted name ++ " is not a valid Python identifier"
  | alreadyGenerated name owner =>
      Text.quoted name.display ++ " is already generated for " ++ owner

end SchemaProblem

/-- Why a compilation fails. -/
inductive Cause where
  | document (problem : DocumentProblem)
  | unknownKind
  | unknownField
  | schema (problem : SchemaProblem)
  | notGenerated
  deriving DecidableEq, Repr

namespace Cause

/-- The category of a cause. -/
def category : Cause → Category
  | document _ => .malformedDocument
  | unknownKind => .unknownVariant
  | unknownField => .unknownVariant
  | schema _ => .schemaMismatch
  | notGenerated => .unsupportedVariant

/-- The wording of a cause. -/
def message : Cause → String
  | document problem => problem.message
  | unknownKind => "unrecognized definition type"
  | unknownField => "unrecognized field type"
  | schema problem => problem.message
  | notGenerated => "code generation is not implemented for this variant"

end Cause

/-- A failure of a compilation. -/
structure Error where
  cause : Cause
  /-- What is at fault: the id of a document or a definition, or a file. -/
  identifier : Option String
  /-- The tag of the definition at fault. -/
  tag : Option String
  deriving DecidableEq, Repr

namespace Error

/-- An error in words. -/
def report (error : Error) : Report where
  category := error.cause.category
  message := error.cause.message
  identifier := error.identifier
  tag := error.tag

end Error

end LexiconCompiler
