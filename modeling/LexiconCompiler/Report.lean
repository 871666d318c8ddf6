/-!
# Reports

A report tells an error in words: a code for its category, what is wrong, and where.
-/

namespace LexiconCompiler

/-- The categories of errors. -/
inductive Category where
  | general
  /-- The input is not JSON or not a document. -/
  | malformedDocument
  /-- A tag names none of the known kinds or types. -/
  | unknownVariant
  /-- A member of a definition is missing or not as it should be. -/
  | schemaMismatch
  /-- A definition is fine, but nothing can be generated for it. -/
  | unsupportedVariant
  deriving DecidableEq, Repr

/-- The code of a category, with which messages begin. -/
def Category.code : Category → String
  | general => "lexicon"
  | malformedDocument => "malformed-document"
  | unknownVariant => "unknown-variant"
  | schemaMismatch => "schema-mismatch"
  | unsupportedVariant => "unsupported-variant"

/-- An error in words. -/
structure Report where
  category : Category
  message : String
  identifier : Option String
  tag : Option String
  deriving DecidableEq, Repr

namespace Report

/-- What a message says about the place of an error. An empty identifier is left out, an
empty tag is not. -/
def context (report : Report) : List String :=
  (report.identifier.toList.filter (· ≠ "")) ++ report.tag.toList.map ("type=" ++ ·)

/-- The whole text of a report. -/
def render (report : Report) : String :=
  let place :=
    match report.context with
    | [] => ""
    | context => " (" ++ ", ".intercalate context ++ ")"
  "[" ++ report.category.code ++ "] " ++ report.message ++ place

end Report

end LexiconCompiler
