import LexiconCompiler.Module
import LexiconCompiler.Source.Description
import LexiconCompiler.Source.Layout
import LexiconCompiler.Source.Literal

/-!
# Statements

A generated module is a list of statements: comments, imports, constants and classes.
This module says which statements a module has and how each of them is written. The source
text of a module is the text of its statements, laid out.
-/

namespace LexiconCompiler.Source

/-- A line, or a docstring, in the body of a class. -/
inductive BodyLine where
  | docstring (description : String)
  | blank
  | pass
  | field (declared : Field)
  deriving DecidableEq, Repr

/-- A statement of a generated module. -/
inductive Statement where
  | blank
  /-- A comment, given by what follows its first mark. -/
  | comment (text : String)
  /-- Take one name from another module. -/
  | importName (source name : String)
  | assign (name : String) (value : Literal)
  | dataclass (name : String) (body : List BodyLine)
  deriving Repr

namespace BodyLine

/-- What is remarked after a field that is restricted to some values. -/
def choicesRemark : List String → List Char
  | [] => []
  | choices =>
      "  # one of: ".toList ++
        [',', ' '].intercalate (choices.map fun choice => Json.writeString choice.toList)

/-- A line of a body as it is written. -/
def render : BodyLine → List Char
  | docstring description =>
      "    \"\"\"".toList ++ docstringOf description.toList ++ "\"\"\"".toList
  | blank => []
  | pass => "    pass".toList
  | field declared =>
      "    ".toList ++ declared.name.toList ++ ": ".toList ++
        (if declared.required then declared.typeName.toList
          else "Optional[".toList ++ declared.typeName.toList ++ "] = None".toList) ++
        choicesRemark declared.choices

end BodyLine

/-- A line with the line feed that ends it. -/
def ended (line : List Char) : List Char :=
  line ++ ['\n']

namespace Statement

/-- A statement as it is written, with a line feed at the end of every line. -/
def render : Statement → List Char
  | blank => ended []
  | comment text => ended ("# ".toList ++ text.toList)
  | importName source name =>
      ended ("from ".toList ++ source.toList ++ " import ".toList ++ name.toList)
  | assign name value => ended (name.toList ++ " = ".toList ++ value.render)
  | dataclass name body =>
      ended "@dataclass".toList ++ ended ("class ".toList ++ name.toList ++ [':']) ++
        body.flatMap fun line => ended line.render

end Statement

end LexiconCompiler.Source

namespace LexiconCompiler

open Source

namespace Struct

/-- The body of a class: the description if it says anything, and the fields. -/
def body (struct : Struct) : List BodyLine :=
  let fields := struct.fields.map BodyLine.field
  match struct.description.filter (· ≠ "") with
  | some description =>
      BodyLine.docstring description :: if fields.isEmpty then [] else .blank :: fields
  | none => if fields.isEmpty then [.pass] else fields

/-- The statements of a struct. -/
def statements (struct : Struct) : List Statement :=
  [.blank, .blank, .dataclass struct.name struct.body]

end Struct

namespace Constants

/-- The comment on a group of constants, if their description says anything. -/
def comments (constants : Constants) : List Statement :=
  (constants.description.filter (· ≠ "")).toList.map fun description =>
    .comment (Source.comment description)

/-- The constant for an encoding, if there is one to name. -/
def encodingStatements (name : String) (encoding : Option String) : List Statement :=
  (encoding.filter (· ≠ "")).toList.map fun encoding => .assign name (.str encoding)

/-- The statements of a group of constants. -/
def statements (constants : Constants) : List Statement :=
  [.blank, .blank] ++ constants.comments ++
    [.assign (constants.stem ++ "_NSID") (.str constants.id),
     .assign (constants.stem ++ "_KIND") (.str constants.kind)] ++
    encodingStatements (constants.stem ++ "_INPUT_ENCODING") constants.inputEncoding ++
    encodingStatements (constants.stem ++ "_OUTPUT_ENCODING") constants.outputEncoding ++
    [.assign (constants.stem ++ "_ERRORS") (.tuple (constants.errors.map .str))]

end Constants

namespace Module

/-- The comment that begins every module, without its mark. -/
def header (sourceId : String) : String :=
  "Generated by lexgen from " ++ sourceId ++ ". Do not edit."

/-- The statements that begin a module. -/
def preamble (generated : Module) : List Statement :=
  [.comment (header generated.sourceId),
   .blank,
   .importName "__future__" "annotations",
   .blank,
   .importName "dataclasses" "dataclass"] ++
    if generated.hasOptionalField then [.importName "typing" "Optional"] else []

/-- The statements of a module. -/
def statements (generated : Module) : List Statement :=
  generated.preamble ++ generated.methods.flatMap Constants.statements ++
    generated.structs.flatMap Struct.statements

/-- The statements of a module as they are written, before they are laid out. -/
def draftText (generated : Module) : List Char :=
  generated.statements.flatMap Source.Statement.render

/-- The source text of a module. -/
def text (generated : Module) : String :=
  String.ofList (Source.tidyOf generated.draftText)

/-- The source text generated for a list of definitions. -/
def source (sourceId : String) (definitions : List Definition) : Except Error String := do
  let generated ← ofDefinitions sourceId definitions
  .ok generated.text

end Module

end LexiconCompiler
