import LexiconCompiler.Proofs.Module.Skeleton
import LexiconCompiler.Proofs.Source.LiteralValue
import LexiconCompiler.Proofs.Source.Tidying

/-!
# The values of constants

A generated module assigns every constant of a method on a line of its own, and the
expression on that line is the text of a literal. So a constant has the value that the
lexicon gives it, as far as literals keep their values.
-/

namespace LexiconCompiler

open Source Traversal

/-! ## Statements of a method -/

/-- The literals of constants: a text, or the texts of a list. -/
inductive Constants.IsText : Literal → Prop where
  | str (text : String) : IsText (.str text)
  | tuple (texts : List String) : IsText (.tuple (texts.map .str))

namespace Constants

variable {value : Literal}

theorem IsText.solid (isText : IsText value) : Solid value.render := by
  cases isText with
  | str text => exact Solid.append (by decide) ('"' :: text.toList.flatMap Json.writtenChar)
  | tuple texts => exact solid_tupleOf _

theorem IsText.fits (isText : IsText value) (limits : Limits) {nesting : Nat}
    (some : 0 < nesting) : value.Fits limits nesting := by
  obtain ⟨nesting, rfl⟩ : ∃ less, nesting = less + 1 := ⟨nesting - 1, by omega⟩
  cases isText with
  | str text => exact .str text
  | tuple texts =>
      apply Literal.Fits.tuple
      intro item member
      obtain ⟨text, _, rfl⟩ := List.mem_map.mp member
      exact .str text

/-- A tuple stays on its line if its items do. -/
theorem unbroken_tupleOf {items : List (List Char)}
    (each : ∀ item ∈ items, Reading.Unbroken item) :
    Reading.Unbroken (Literal.tupleOf items) := by
  have opened : Reading.Unbroken ['('] := by decide
  rcases items with _ | ⟨item, _ | ⟨next, items⟩⟩
  · decide
  · have closed : Reading.Unbroken [',', ')'] := by decide
    exact (opened.append (each item List.mem_cons_self)).append closed
  · have closed : Reading.Unbroken [')'] := by decide
    exact (opened.append (Reading.Unbroken.intercalate (by decide) each)).append closed

theorem IsText.unbroken (isText : IsText value) : Reading.Unbroken value.render := by
  cases isText with
  | str text => exact Reading.unbroken_writeString text.toList
  | tuple texts =>
      rw [Literal.render, Literal.renderAll_eq_map]
      apply unbroken_tupleOf
      intro item member
      simp only [List.map_map, List.mem_map] at member
      obtain ⟨text, _, rfl⟩ := member
      exact Reading.unbroken_writeString text.toList

theorem IsText.exists_leaves (isText : IsText value) {name : String}
    (plain : Reading.Plain name.toList) :
    ∃ codes, Leaves (Statement.assign name value).render codes := by
  cases isText with
  | str text => exact ⟨_, leaves_assign_str plain text⟩
  | tuple texts => exact ⟨_, leaves_assign_tuple plain texts⟩

/-- The constant for an encoding, if there is one to name. -/
def assignedEncoding (ending : String) (encoding : Option String) : List (String × Literal) :=
  (encoding.filter (· ≠ "")).toList.map fun encoding => (ending, .str encoding)

/-- The constants of a group: what their names end in, and their values. -/
def assigned (constants : Constants) : List (String × Literal) :=
  [("_NSID", .str constants.id), ("_KIND", .str constants.kind)] ++
    assignedEncoding "_INPUT_ENCODING" constants.inputEncoding ++
    assignedEncoding "_OUTPUT_ENCODING" constants.outputEncoding ++
    [("_ERRORS", .tuple (constants.errors.map .str))]

/-- The statement of a constant. -/
def assignment (constants : Constants) (entry : String × Literal) : Statement :=
  .assign (constants.stem ++ entry.1) entry.2

theorem statements_eq (constants : Constants) : constants.statements =
    [.blank, .blank] ++ constants.comments ++ constants.assigned.map constants.assignment := by
  have encoded : ∀ ending encoding, encodingStatements (constants.stem ++ ending) encoding =
      (assignedEncoding ending encoding).map constants.assignment := by
    intro ending encoding
    rw [encodingStatements, assignedEncoding, List.map_map]
    rfl
  rw [statements, assigned, encoded, encoded]
  simp only [List.map_append, List.append_assoc]
  rfl

/-- The names of constants end in code, and their values are texts. -/
theorem plain_and_isText_of_mem_assigned {constants : Constants} {entry : String × Literal}
    (member : entry ∈ constants.assigned) : Reading.Plain entry.1.toList ∧ IsText entry.2 := by
  have encoded : ∀ {ending encoding}, Reading.Plain ending.toList →
      entry ∈ assignedEncoding ending encoding →
        Reading.Plain entry.1.toList ∧ IsText entry.2 := by
    intro ending encoding plain inside
    obtain ⟨text, _, rfl⟩ := List.mem_map.mp inside
    exact ⟨plain, .str text⟩
  simp only [assigned, List.mem_append, List.mem_cons, List.not_mem_nil, or_false] at member
  rcases member with (((rfl | rfl) | input) | output) | rfl
  · exact ⟨show Reading.Plain "_NSID".toList by decide, .str _⟩
  · exact ⟨show Reading.Plain "_KIND".toList by decide, .str _⟩
  · exact encoded (by decide) input
  · exact encoded (by decide) output
  · exact ⟨show Reading.Plain "_ERRORS".toList by decide, .tuple _⟩

/-- A statement of a group starts and ends with a line of code. -/
theorem exists_leaves {constants : Constants} (declarable : Name.isDeclarable constants.stem = true)
    {statement : Statement} (member : statement ∈ constants.statements) :
    ∃ codes, Leaves statement.render codes := by
  rw [statements_eq, List.mem_append, List.mem_append, List.mem_map] at member
  rcases member with (blank | comment) | ⟨entry, inside, rfl⟩
  · have same : statement = .blank := by simpa using blank
    rw [same]
    exact ⟨[], .blank⟩
  · obtain ⟨description, among, rfl⟩ := List.mem_map.mp comment
    have leaves := leaves_comments constants
    rw [comments, Option.mem_toList.mp among] at leaves
    exact ⟨[], by simpa using leaves⟩
  · obtain ⟨plain, isText⟩ := plain_and_isText_of_mem_assigned inside
    apply isText.exists_leaves
    rw [String.toList_append]
    exact (Reading.plain_of_isDeclarable declarable).append plain

end Constants

/-! ## Lines of a module -/

/-- Statements that each start and end with a line of code do so together. -/
theorem Source.exists_leaves_flatMap {statements : List Statement}
    (each : ∀ statement ∈ statements, ∃ codes, Leaves statement.render codes) :
    ∃ codes, Leaves (statements.flatMap Statement.render) codes := by
  induction statements with
  | nil => exact ⟨[], .nil⟩
  | cons statement statements ih =>
      rw [List.forall_mem_cons] at each
      obtain ⟨codes, first⟩ := each.1
      obtain ⟨others, later⟩ := ih each.2
      exact ⟨codes ++ others, first.append later⟩

namespace Module

/-- A source text assigns an expression to a name, on a line of its own behind others. -/
def Assigns (source name : String) (expression before : List Char) : Prop :=
  Whole before ∧ ∃ after,
    source.toList = before ++ ended (name.toList ++ " = ".toList ++ expression) ++ after

/-- Who has read a text stands at the start of a line, outside strings and comments. -/
def LeadsToCode (text : List Char) : Prop :=
  ∃ lines, Reading.start.run text = ⟨.code, [], lines⟩

variable {generated : Module} {constants : Constants} {entry : String × Literal}

/-- The line of a constant. -/
def assignedLine (constants : Constants) (entry : String × Literal) : List Char :=
  (constants.stem ++ entry.1).toList ++ " = ".toList ++ entry.2.render

/-- The line of a constant stands behind the preamble and other statements of methods. -/
theorem exists_split_draftText (among : constants ∈ generated.methods)
    (member : entry ∈ constants.assigned) :
    ∃ early late, early ⊆ generated.methods.flatMap Constants.statements ∧
      generated.draftText = (generated.preamble ++ early).flatMap Statement.render ++
        ended (assignedLine constants entry) ++ late := by
  have inside : constants.assignment entry ∈
      generated.methods.flatMap Constants.statements := by
    refine List.mem_flatMap.mpr ⟨constants, among, ?_⟩
    rw [Constants.statements_eq]
    exact List.mem_append_right _ (List.mem_map_of_mem member)
  obtain ⟨early, late, split⟩ := List.append_of_mem inside
  have line : (constants.assignment entry).render = ended (assignedLine constants entry) := rfl
  refine ⟨early, (late ++ generated.structs.flatMap Struct.statements).flatMap Statement.render,
    by rw [split]; exact List.subset_append_left _ _, ?_⟩
  rw [draftText, statements, split, ← line]
  simp only [List.flatMap_append, List.flatMap_cons, List.append_assoc]

theorem solid_assignedLine (member : entry ∈ constants.assigned) :
    Solid (assignedLine constants entry) :=
  (Constants.plain_and_isText_of_mem_assigned member).2.solid.append _

theorem not_mem_assignedLine (declarable : Name.isDeclarable constants.stem = true)
    (member : entry ∈ constants.assigned) : '\n' ∉ assignedLine constants entry := by
  obtain ⟨plain, isText⟩ := Constants.plain_and_isText_of_mem_assigned member
  have named : Reading.Plain ((constants.stem ++ entry.1).toList ++ " = ".toList) := by
    rw [String.toList_append]
    exact ((Reading.plain_of_isDeclarable declarable).append plain).append (by decide)
  intro feed
  rcases List.mem_append.mp feed with inName | inText
  · cases named '\n' inName
  · cases isText.unbroken '\n' inText

/-- Behind the preamble and statements of methods there is code, unless the id of the module
breaks the header. -/
theorem leadsToCode_preamble_append (unbroken : Reading.Unbroken generated.sourceId.toList)
    (declarable : ∀ constants ∈ generated.methods, Name.isDeclarable constants.stem = true)
    {early : List Statement} (known : early ⊆ generated.methods.flatMap Constants.statements) :
    LeadsToCode ((generated.preamble ++ early).flatMap Statement.render) := by
  have each : ∀ statement ∈ early, ∃ codes, Leaves statement.render codes := by
    intro statement inside
    obtain ⟨group, found, here⟩ := List.mem_flatMap.mp (known inside)
    exact Constants.exists_leaves (declarable group found) here
  obtain ⟨codes, leaves⟩ := exists_leaves_flatMap each
  have before := (leaves_preamble unbroken).append leaves []
  rw [← List.flatMap_append] at before
  exact ⟨_, before⟩

/-- A module assigns every constant of its methods, and the line is code unless the id of the
module breaks the header. -/
theorem exists_assigns (declarable : ∀ constants ∈ generated.methods,
      Name.isDeclarable constants.stem = true)
    (among : constants ∈ generated.methods) (member : entry ∈ constants.assigned) :
    ∃ before, Assigns generated.text (constants.stem ++ entry.1) entry.2.render before ∧
      (Reading.Unbroken generated.sourceId.toList → LeadsToCode before) := by
  obtain ⟨early, late, known, draft⟩ := exists_split_draftText among member
  have whole : Whole ((generated.preamble ++ early).flatMap Statement.render) :=
    .flatMap fun statement _ => .render statement
  obtain ⟨front, laidOut, lines, reads⟩ := exists_tidyOf_eq whole (solid_assignedLine member)
    (not_mem_assignedLine (declarable constants among) member) late
  have shown : generated.text.toList = tidyOf generated.draftText := by
    rw [text, String.toList_ofList]
  rw [draft, laidOut] at shown
  refine ⟨front, ⟨lines, _, shown⟩, ?_⟩
  intro unbroken
  obtain ⟨codes, before⟩ := leadsToCode_preamble_append unbroken declarable known
  refine ⟨codes, (reads ?_).trans before⟩
  rw [before]
  rintro ⟨⟩

end Module

/-! ## The values of a module -/

/-- The text of a literal evaluates to its value iff the literal keeps the limits of the
implementation and all its characters are in the basic plane. A generated module assigns
every constant of its methods, on a line of code if the id of the module stays on its line,
and the expression there evaluates to what the lexicon says under the same condition. -/
theorem constants_evaluate_iff (limits : Limits) :
    (∀ literal : Literal, evaluate limits literal.render = some literal.value ↔
      literal.Fits limits limits.nesting ∧ literal.Basic) ∧
    ∀ sourceId definitions source, Module.source sourceId definitions = .ok source →
      ∀ definition ∈ definitions, ∀ constants, definition.constants? = some constants →
        ∀ entry ∈ constants.assigned, ∃ before expression,
          Module.Assigns source (constants.stem ++ entry.1) expression before ∧
          (Reading.Unbroken sourceId.toList → Module.LeadsToCode before) ∧
          (0 < limits.nesting →
            (evaluate limits expression = some entry.2.value ↔ entry.2.Basic)) := by
  refine ⟨evaluate_render_iff limits, ?_⟩
  intro sourceId definitions source made definition known constants given entry member
  obtain ⟨generated, holds, equal⟩ := bind_eq_ok_iff.mp made
  obtain ⟨rfl, structs, groups, _, groupsMade, holds⟩ := Module.holds_of_ofDefinitions holds
  have shown : source = generated.text := (Except.ok.inj equal).symm
  rw [shown]
  have declarable : ∀ constants ∈ generated.methods, Name.isDeclarable constants.stem = true := by
    intro one inside
    rw [holds.methods_eq] at inside
    exact Definition.isDeclarable_of_mem_constants groupsMade inside
  have among : constants ∈ generated.methods := by
    rw [holds.methods_eq, Definition.reduceOption_constants groupsMade]
    exact List.mem_filterMap.mpr ⟨definition, known, given⟩
  obtain ⟨before, assigns, reads⟩ := Module.exists_assigns declarable among member
  refine ⟨before, entry.2.render, assigns, reads, ?_⟩
  intro some
  have fits := (Constants.plain_and_isText_of_mem_assigned member).2.fits limits some
  rw [evaluate_render_iff]
  exact and_iff_right fits

/-- The constants of the method whose texts would end the comment and the string. -/
def quotedConstants : Constants where
  stem := "ASK"
  id := "x.ask"
  kind := "query"
  description := some "\rimport os"
  inputEncoding := none
  outputEncoding := some "\"\nimport os"
  errors := ["\" + x"]

theorem constants_evaluate_quotedMethod :
    ∃ source, Module.source "x # \"" [quotedMethod] = .ok source ∧ ∃ before expression,
      Module.Assigns source "ASK_OUTPUT_ENCODING" expression before ∧
      Module.LeadsToCode before ∧
      evaluate ⟨4300, 200⟩ expression = some (Literal.str "\"\nimport os").value := by
  have succeeds : (Module.source "x # \"" [quotedMethod]).isOk = true := by
    decide +kernel
  have given : quotedMethod.constants? = some quotedConstants := by
    decide +kernel
  have member : ("_OUTPUT_ENCODING", .str "\"\nimport os") ∈ quotedConstants.assigned := by
    simp [Constants.assigned, Constants.assignedEncoding, quotedConstants]
  cases made : Module.source "x # \"" [quotedMethod] with
  | error error =>
      rw [made] at succeeds
      cases succeeds
  | ok source =>
      obtain ⟨_, values⟩ := constants_evaluate_iff ⟨4300, 200⟩
      obtain ⟨before, expression, assigns, reads, evaluates⟩ :=
        values _ _ source made quotedMethod List.mem_cons_self quotedConstants given _ member
      exact ⟨source, rfl, before, expression, assigns, reads (by decide),
        (evaluates (by decide)).mpr (.str (by simp))⟩

/-- A character above the basic plane comes back as two surrogates. -/
theorem evaluate_of_supplementary_character :
    evaluate ⟨4300, 200⟩ (Literal.str "😀").render = some (.str [0xD83D, 0xDE00]) ∧
      evaluate ⟨4300, 200⟩ (Literal.str "😀").render ≠ some (Literal.str "😀").value := by
  have read : evaluate ⟨4300, 200⟩ (Literal.str "😀").render = some (.str [0xD83D, 0xDE00]) := by
    rfl
  refine ⟨read, ?_⟩
  rw [read]
  intro same
  cases same

end LexiconCompiler
