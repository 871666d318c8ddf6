import LexiconCompiler.Source.Statement
import LexiconCompiler.Proofs.Module.Structs
import LexiconCompiler.Proofs.Source.Docstring
import LexiconCompiler.Proofs.Source.Escaping
import LexiconCompiler.Proofs.Source.Layout

/-!
# The code of statements

Each statement of a module leaves lines of code when it is read from the start of a line.
Comments leave none, docstrings and strings leave their quotes, and everything else is
left as it is. Statements after one another leave their lines after one another.
-/

namespace LexiconCompiler

open Source

/-! ## Lines of code -/

/-- The line of a field. -/
def Field.codeLine (field : Field) : String :=
  "    " ++ field.name ++ ": " ++
    if field.required then field.typeName else "Optional[" ++ field.typeName ++ "] = None"

/-- The lines of the body of a class: a docstring if there is a description, every field,
and a statement of its own if there is neither. -/
def Struct.bodyLines (struct : Struct) : List String :=
  match struct.description.filter (· ≠ "") with
  | some _ => "    \"\"\"\"\"\"" :: struct.fields.map Field.codeLine
  | none => if struct.fields.isEmpty then ["    pass"] else struct.fields.map Field.codeLine

/-- The lines of a class. -/
def Struct.codeLines (struct : Struct) : List String :=
  ["@dataclass", "class " ++ struct.name ++ ":"] ++ struct.bodyLines

namespace Constants

/-- The line of a constant for an encoding, if the encoding is not empty. -/
def encodingLines (name : String) (encoding : Option String) : List String :=
  (encoding.filter (· ≠ "")).toList.map fun _ => name ++ " = \"\""

/-- The lines of a group of constants, with one string for every error. -/
def codeLines (constants : Constants) : List String :=
  [constants.stem ++ "_NSID = \"\"", constants.stem ++ "_KIND = \"\""] ++
    encodingLines (constants.stem ++ "_INPUT_ENCODING") constants.inputEncoding ++
    encodingLines (constants.stem ++ "_OUTPUT_ENCODING") constants.outputEncoding ++
    [constants.stem ++ "_ERRORS = " ++
      String.ofList (Literal.tupleOf (constants.errors.map fun _ => ['"', '"']))]

end Constants

namespace Module

/-- The import lines of a module. -/
def importLines (optional : Bool) : List String :=
  ["from __future__ import annotations", "from dataclasses import dataclass"] ++
    if optional then ["from typing import Optional"] else []

/-- The lines of a module that are code. -/
def codeLines (structs : List Struct) (methods : List Constants) : List String :=
  importLines (structs.any fun struct => struct.fields.any fun field => !field.required) ++
    methods.flatMap Constants.codeLines ++ structs.flatMap Struct.codeLines

end Module

/-! ## Pieces of source text -/

namespace Source

open Reading

/-- From the start of a line, a text leaves lines of code and ends its last line. -/
def Leaves (text : List Char) (codes : List String) : Prop :=
  ∀ lines, Reading.run ⟨.code, [], lines⟩ text =
    ⟨.code, [], lines ++ codes.map String.toList⟩

namespace Leaves

theorem nil : Leaves [] [] := by
  intro lines
  simp

theorem append {first second : List Char} {early late : List String}
    (before : Leaves first early) (after : Leaves second late) :
    Leaves (first ++ second) (early ++ late) := by
  intro lines
  rw [run_append, before, after, List.map_append, List.append_assoc]

theorem flatMap {α : Type} {items : List α} {text : α → List Char} {codes : α → List String}
    (each : ∀ item ∈ items, Leaves (text item) (codes item)) :
    Leaves (items.flatMap text) (items.flatMap codes) := by
  induction items with
  | nil => exact nil
  | cons item items ih =>
      exact (each item List.mem_cons_self).append
        (ih fun other member => each other (List.mem_cons_of_mem _ member))

theorem blank : Leaves (ended []) [] := by
  intro lines
  simp [ended, step_newline]

/-- A plain line is left as it is. -/
theorem line {line : String} (plain : Plain line.toList) (solid : Solid line.toList) :
    Leaves (ended line.toList) [line] := by
  intro lines
  rw [ended, run_append, run_plain plain]
  simp [step_newline, keptLine_of_solid solid]

/-- A plain line is left without the comment after it. -/
theorem remarked {line : String} {remark : List Char} (plain : Plain line.toList)
    (solid : Solid line.toList) (whole : Unbroken remark) :
    Leaves (ended (line.toList ++ ("  #".toList ++ remark))) [line] := by
  intro lines
  have opened : Reading.run ⟨.code, line.toList, lines⟩ "  #".toList =
      ⟨.comment, line.toList ++ [' '] ++ [' '], lines⟩ := rfl
  rw [ended, List.append_assoc, List.append_assoc, run_append, run_plain plain,
    List.nil_append, run_append, opened, run_append, run_comment whole]
  simp only [run_cons, run_nil, step_comment_newline]
  rw [keptLine_concat_blank (by decide), keptLine_concat_blank (by decide),
    keptLine_of_solid solid]
  rfl

/-- A comment leaves nothing. -/
theorem comment {text : List Char}
    (whole : ∀ lines, Reading.run ⟨.comment, [], lines⟩ (text ++ ['\n']) =
      ⟨.code, [], lines⟩) : Leaves (ended ("# ".toList ++ text)) [] := by
  intro lines
  have opened : Reading.run ⟨.code, [], lines⟩ "# ".toList = ⟨.comment, [], lines⟩ := rfl
  rw [ended, List.append_assoc, run_append, opened, whole]
  simp

end Leaves

theorem Leaves.skeletonOf {text : List Char} {codes : List String} (leaves : Leaves text codes) :
    skeletonOf text = some (codes.map String.toList) := by
  rw [skeletonOf_eq_some, run_append, Reading.start, leaves]
  simp [step_newline]

/-! ## Statements -/

theorem leaves_assign {name : String} (plain : Plain name.toList) (value : Literal)
    {shown : List Char} (solid : Solid shown)
    (reads : ∀ line lines, Reading.run ⟨.code, line, lines⟩ (value.render ++ ['\n']) =
      Reading.run ⟨.code, line ++ shown, lines⟩ ['\n']) :
    Leaves (Statement.assign name value).render [name ++ " = " ++ String.ofList shown] := by
  intro lines
  have before : Plain (name.toList ++ " = ".toList) := plain.append (by decide)
  have whole := solid.append (name.toList ++ " = ".toList)
  rw [Statement.render, ended, List.append_assoc, run_append, run_plain before, reads]
  simp only [List.nil_append, run_cons, run_nil, step_newline]
  rw [keptLine_of_solid whole]
  simp

theorem leaves_assign_str {name : String} (plain : Plain name.toList) (value : String) :
    Leaves (Statement.assign name (.str value)).render [name ++ " = \"\""] := by
  have leaves := leaves_assign plain (.str value) (show Solid ['"', '"'] by decide)
    fun line lines => run_writeString value.toList [] (by decide)
  have same : name ++ " = " ++ String.ofList ['"', '"'] = name ++ " = \"\"" := by
    rw [String.append_assoc]
    rfl
  rwa [same] at leaves

theorem solid_tupleOf (items : List (List Char)) : Solid (Literal.tupleOf items) := by
  rcases items with _ | ⟨item, _ | ⟨next, items⟩⟩
  · decide
  · exact (show Solid [',', ')'] by decide).append ('(' :: item)
  · exact (show Solid [')'] by decide).append ('(' :: _)

theorem leaves_assign_tuple {name : String} (plain : Plain name.toList) (values : List String) :
    Leaves (Statement.assign name (.tuple (values.map .str))).render
      [name ++ " = " ++ String.ofList (Literal.tupleOf (values.map fun _ => ['"', '"']))] := by
  apply leaves_assign plain _ (solid_tupleOf _)
  intro line lines
  rw [run_append, run_tuple]

/-! ## Bodies of classes -/

/-- The lines of a line of a body that are code. -/
def BodyLine.codeLines : BodyLine → List String
  | docstring _ => ["    \"\"\"\"\"\""]
  | blank => []
  | pass => ["    pass"]
  | field declared => [declared.codeLine]

/-- A field whose name and type can stand in source text. -/
structure Declared (field : Field) : Prop where
  named : Name.isDeclarable field.name = true
  typed : ∃ tag, (tag, field.typeName) ∈ Field.typeNames

theorem plain_codeLine {field : Field} (declared : Declared field) :
    Plain field.codeLine.toList := by
  have table : ∀ entry ∈ Field.typeNames, Plain entry.2.toList := by decide
  obtain ⟨tag, typed⟩ := declared.typed
  have type : Plain field.typeName.toList := table _ typed
  have indent : Plain "    ".toList := by decide
  have front := (indent.append (plain_of_isDeclarable declared.named)).append
    (show Plain ": ".toList by decide)
  have opening : Plain "Optional[".toList := by decide
  rw [Field.codeLine]
  split
  · simp only [String.toList_append]
    exact front.append type
  · simp only [String.toList_append]
    exact front.append ((opening.append type).append (by decide))

theorem solid_codeLine {field : Field} (declared : Declared field) :
    Solid field.codeLine.toList := by
  have table : ∀ entry ∈ Field.typeNames, Solid entry.2.toList := by decide
  obtain ⟨tag, typed⟩ := declared.typed
  have closing : Solid "] = None".toList := by decide
  rw [Field.codeLine, String.toList_append]
  apply Solid.append
  split
  · exact table _ typed
  · rw [String.toList_append]
    exact closing.append _

/-- What is remarked after a field is a comment. -/
theorem choicesRemark_eq (choices : List String) :
    BodyLine.choicesRemark choices = [] ∨
      ∃ remark, BodyLine.choicesRemark choices = "  #".toList ++ remark ∧ Unbroken remark := by
  rcases choices with _ | ⟨choice, choices⟩
  · exact .inl rfl
  · right
    have mark : "  # one of: ".toList = "  #".toList ++ " one of: ".toList := by decide
    refine ⟨" one of: ".toList ++ [',', ' '].intercalate
      ((choice :: choices).map fun choice => Json.writeString choice.toList), ?_, ?_⟩
    · rw [← List.append_assoc, ← mark]
      exact BodyLine.choicesRemark.eq_2 _ (List.cons_ne_nil _ _)
    · apply Unbroken.append (by decide)
      apply Unbroken.intercalate (by decide)
      intro text member
      obtain ⟨choice, _, rfl⟩ := List.mem_map.mp member
      exact unbroken_writeString choice.toList

theorem render_field (field : Field) : (BodyLine.field field).render =
    field.codeLine.toList ++ BodyLine.choicesRemark field.choices := by
  change "    ".toList ++ field.name.toList ++ ": ".toList ++
    (if field.required then field.typeName.toList
      else "Optional[".toList ++ field.typeName.toList ++ "] = None".toList) ++
    BodyLine.choicesRemark field.choices = _
  rw [Field.codeLine]
  split <;> simp only [String.toList_append]

theorem leaves_field {field : Field} (declared : Declared field) :
    Leaves (ended (BodyLine.field field).render) [field.codeLine] := by
  rw [render_field]
  rcases choicesRemark_eq field.choices with none | ⟨remark, some, whole⟩
  · rw [none, List.append_nil]
    exact .line (plain_codeLine declared) (solid_codeLine declared)
  · rw [some]
    exact .remarked (plain_codeLine declared) (solid_codeLine declared) whole

theorem leaves_docstring {description : String}
    (solid : (Text.trim description.toList).getLast? ≠ some '"') :
    Leaves (ended (BodyLine.docstring description).render) ["    \"\"\"\"\"\""] := by
  intro lines
  have indented : Reading.run ⟨.code, [], lines⟩ "    ".toList =
      ⟨.code, "    ".toList, lines⟩ := rfl
  have shown : (BodyLine.docstring description).render =
      "    ".toList ++ (['"', '"', '"'] ++ docstringOf description.toList ++
        ['"', '"', '"']) := rfl
  rw [shown, ended, List.append_assoc, run_append, indented, run_append,
    run_docstringOf solid]
  rfl

/-- A struct that can be shown: its names can be declared, and its description does not
end in a quote. -/
structure DeclaredStruct (struct : Struct) : Prop where
  named : Name.isDeclarable struct.name = true
  fields : ∀ field ∈ struct.fields, Declared field
  described : ∀ description, struct.description = some description →
    (Text.trim description.toList).getLast? ≠ some '"'

theorem leaves_fields {fields : List Field} (declared : ∀ field ∈ fields, Declared field) :
    Leaves ((fields.map BodyLine.field).flatMap fun line => ended line.render)
      (fields.map Field.codeLine) := by
  rw [List.flatMap_map, List.map_eq_flatMap]
  exact .flatMap fun field member => leaves_field (declared field member)

theorem leaves_body {struct : Struct} (declared : DeclaredStruct struct) :
    Leaves (struct.body.flatMap fun line => ended line.render) struct.bodyLines := by
  have fields := leaves_fields declared.fields
  rw [Struct.body, Struct.bodyLines]
  cases shown : struct.description.filter (· ≠ "") with
  | none =>
      have pass : Leaves (ended "    pass".toList) ["    pass"] :=
        .line (by decide) (by decide)
      cases none : struct.fields with
      | nil => exact pass
      | cons field others =>
          rw [none] at fields
          exact fields
  | some description =>
      have given := (Option.filter_eq_some_iff.mp shown).1
      have docstring := leaves_docstring (declared.described description given)
      dsimp only
      rw [List.flatMap_cons]
      apply docstring.append
      cases none : struct.fields with
      | nil => exact .nil
      | cons field others =>
          rw [none] at fields
          exact Leaves.blank.append fields

theorem leaves_struct {struct : Struct} (declared : DeclaredStruct struct) :
    Leaves (struct.statements.flatMap Statement.render) struct.codeLines := by
  have decorator : Leaves (ended "@dataclass".toList) ["@dataclass"] :=
    .line (by decide) (by decide)
  have opening : Plain "class ".toList := by decide
  have colon : Solid [':'] := by decide
  have header : Leaves (ended ("class ".toList ++ struct.name.toList ++ [':']))
      ["class " ++ struct.name ++ ":"] := by
    have same : "class ".toList ++ struct.name.toList ++ [':'] =
        ("class " ++ struct.name ++ ":").toList := by
      simp only [String.toList_append]
      rfl
    rw [same]
    apply Leaves.line <;> rw [← same]
    · exact (opening.append (plain_of_isDeclarable declared.named)).append (by decide)
    · exact colon.append _
  have body := leaves_body declared
  have whole := Leaves.blank.append (Leaves.blank.append ((decorator.append header).append body))
  simpa [Struct.statements, Statement.render, Struct.codeLines] using whole

/-! ## Constants -/

theorem leaves_encoding {name : String} (plain : Plain name.toList) (encoding : Option String) :
    Leaves ((Constants.encodingStatements name encoding).flatMap Statement.render)
      (Constants.encodingLines name encoding) := by
  rw [Constants.encodingStatements, Constants.encodingLines]
  cases encoding.filter (· ≠ "") with
  | none => exact .nil
  | some encoding =>
      have leaves := leaves_assign_str plain encoding
      simpa using leaves

theorem leaves_comments (constants : Constants) :
    Leaves (constants.comments.flatMap Statement.render) [] := by
  rw [Constants.comments]
  cases constants.description.filter (· ≠ "") with
  | none => exact .nil
  | some description =>
      have comment : Leaves (Statement.comment (Source.comment description)).render [] := by
        rw [Statement.render, Source.comment]
        apply Leaves.comment
        intro lines
        rw [String.toList_ofList]
        exact run_commentOf description.toList
      simpa using comment

theorem leaves_constants {constants : Constants}
    (declarable : Name.isDeclarable constants.stem = true) :
    Leaves (constants.statements.flatMap Statement.render) constants.codeLines := by
  have stem := plain_of_isDeclarable declarable
  have named : ∀ ending : String, Plain ending.toList →
      Plain (constants.stem ++ ending).toList := by
    intro ending plain
    rw [String.toList_append]
    exact stem.append plain
  have id := leaves_assign_str (named "_NSID" (by decide)) constants.id
  have kind := leaves_assign_str (named "_KIND" (by decide)) constants.kind
  have input := leaves_encoding (named "_INPUT_ENCODING" (by decide)) constants.inputEncoding
  have output := leaves_encoding (named "_OUTPUT_ENCODING" (by decide)) constants.outputEncoding
  have errors := leaves_assign_tuple (named "_ERRORS" (by decide)) constants.errors
  have whole := ((((Leaves.blank.append (Leaves.blank.append (leaves_comments constants))).append
    (id.append kind)).append input).append output).append errors
  simpa [Constants.statements, Constants.codeLines, Statement.render, String.append_assoc]
    using whole

/-! ## Modules -/

theorem leaves_importName {source name line : String}
    (same : "from ".toList ++ source.toList ++ " import ".toList ++ name.toList = line.toList)
    (plain : Plain line.toList) (solid : Solid line.toList) :
    Leaves (Statement.importName source name).render [line] := by
  rw [Statement.render, same]
  exact .line plain solid

theorem unbroken_header {sourceId : String} (unbroken : Unbroken sourceId.toList) :
    Unbroken (Module.header sourceId).toList := by
  have opening : Unbroken "Generated by lexgen from ".toList := by decide
  have closing : Unbroken ". Do not edit.".toList := by decide
  have shown : Module.header sourceId =
      "Generated by lexgen from " ++ sourceId ++ ". Do not edit." := rfl
  rw [shown, String.toList_append, String.toList_append]
  exact (opening.append unbroken).append closing

theorem leaves_header {sourceId : String} (unbroken : Unbroken sourceId.toList) :
    Leaves (Statement.comment (Module.header sourceId)).render [] := by
  rw [Statement.render]
  apply Leaves.comment
  intro lines
  rw [run_append, run_comment (unbroken_header unbroken)]
  simp [step_comment_newline]

theorem leaves_preamble {generated : Module}
    (unbroken : Unbroken generated.sourceId.toList) :
    Leaves (generated.preamble.flatMap Statement.render)
      (Module.importLines generated.hasOptionalField) := by
  have future : Leaves (Statement.importName "__future__" "annotations").render
      ["from __future__ import annotations"] :=
    leaves_importName (by decide) (by decide) (by decide)
  have dataclass : Leaves (Statement.importName "dataclasses" "dataclass").render
      ["from dataclasses import dataclass"] :=
    leaves_importName (by decide) (by decide) (by decide)
  have optional : Leaves (Statement.importName "typing" "Optional").render
      ["from typing import Optional"] :=
    leaves_importName (by decide) (by decide) (by decide)
  have always := (leaves_header unbroken).append (Leaves.blank.append (future.append
    (Leaves.blank.append dataclass)))
  rw [Module.preamble, Module.importLines, List.flatMap_append]
  apply Leaves.append
  · simp only [List.flatMap_cons, List.flatMap_nil, List.append_nil]
    exact always
  · cases generated.hasOptionalField with
    | true => simpa only [List.flatMap_singleton, if_true] using optional
    | false => exact .nil

theorem leaves_draftText {generated : Module}
    (unbroken : Unbroken generated.sourceId.toList)
    (structs : ∀ struct ∈ generated.structs, DeclaredStruct struct)
    (methods : ∀ constants ∈ generated.methods, Name.isDeclarable constants.stem = true) :
    Leaves generated.draftText (Module.codeLines generated.structs generated.methods) := by
  rw [Module.draftText, Module.statements, List.flatMap_append, List.flatMap_append,
    List.flatMap_assoc, List.flatMap_assoc]
  exact ((leaves_preamble unbroken).append
    (.flatMap fun constants member => leaves_constants (methods constants member))).append
    (.flatMap fun struct member => leaves_struct (structs struct member))

end Source

end LexiconCompiler
