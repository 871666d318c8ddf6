import LexiconCompiler.Proofs.Module.Drafting
import LexiconCompiler.Proofs.Module.Structs
import LexiconCompiler.Proofs.Name.Characters
import LexiconCompiler.Source.Statement

/-!
# Names that a module binds

A generated module binds names by its imports, its constants and its classes. Names of
different sorts are told apart by their characters, and names of one sort differ because
their stems or their classes do. The one exception is the name `Optional`, which a class
may take while the module imports it: `nodup_boundNames_iff` says that a module binds a
name twice exactly in this case.
-/

namespace LexiconCompiler

open Traversal

/-- The names that a statement binds at the top level of its module. -/
def Source.Statement.boundNames : Source.Statement → List String
  | blank => []
  | comment _ => []
  | importName _ name => [name]
  | assign name _ => [name]
  | dataclass name _ => [name]

/-- The names that a module binds at its top level, in order. -/
def Module.boundNames (generated : Module) : List String :=
  generated.statements.flatMap Source.Statement.boundNames

/-! ## Constants -/

namespace Constants

/-- What may follow the stem in the name of a constant. -/
def endings : List String :=
  ["_NSID", "_KIND", "_INPUT_ENCODING", "_OUTPUT_ENCODING", "_ERRORS"]

/-- The ending for an encoding, if there is one to name. -/
def endingOf (ending : String) (encoding : Option String) : List String :=
  (encoding.filter (· ≠ "")).toList.map fun _ => ending

/-- The endings of the constants that a group declares. -/
def declaredEndings (constants : Constants) : List String :=
  ["_NSID", "_KIND"] ++ endingOf "_INPUT_ENCODING" constants.inputEncoding ++
    endingOf "_OUTPUT_ENCODING" constants.outputEncoding ++ ["_ERRORS"]

theorem boundNames_comments (constants : Constants) :
    constants.comments.flatMap Source.Statement.boundNames = [] := by
  rw [comments]
  cases constants.description.filter (· ≠ "") <;> rfl

theorem boundNames_encodingStatements (stem ending : String) (encoding : Option String) :
    (encodingStatements (stem ++ ending) encoding).flatMap Source.Statement.boundNames =
      (endingOf ending encoding).map (stem ++ ·) := by
  rw [encodingStatements, endingOf]
  cases encoding.filter (· ≠ "") <;> rfl

/-- A group of constants binds its stem with every ending that it declares. -/
theorem boundNames_statements (constants : Constants) :
    constants.statements.flatMap Source.Statement.boundNames =
      constants.declaredEndings.map (constants.stem ++ ·) := by
  simp only [statements, declaredEndings, List.flatMap_append, List.map_append,
    boundNames_comments, boundNames_encodingStatements]
  rfl

theorem declaredEndings_sublist (constants : Constants) :
    constants.declaredEndings.Sublist endings := by
  have optional : ∀ (ending : String) (encoding : Option String),
      (endingOf ending encoding).Sublist [ending] := by
    intro ending encoding
    rw [endingOf]
    cases encoding.filter (· ≠ "") with
    | none => exact List.nil_sublist _
    | some encoding => exact List.Sublist.refl _
  have front : ["_NSID", "_KIND"].Sublist ["_NSID", "_KIND"] := List.Sublist.refl _
  exact ((front.append (optional _ _)).append (optional _ _)).append (List.Sublist.refl _)

/-- No ending ends another one. -/
theorem eq_of_isSuffix_of_mem_endings {ending other : String} (member : ending ∈ endings)
    (otherMember : other ∈ endings) (suffix : ending.toList <:+ other.toList) :
    ending = other := by
  have table : ∀ ending ∈ endings, ∀ other ∈ endings, ending.toList <:+ other.toList →
      ending = other := by decide
  exact table ending member other otherMember suffix

/-- The name of a constant determines its stem and its ending. -/
theorem append_ending_inj {stem stem' ending ending' : String} (member : ending ∈ endings)
    (member' : ending' ∈ endings) (equal : stem ++ ending = stem' ++ ending') :
    stem = stem' ∧ ending = ending' := by
  have same : ending = ending' := by
    have lists := congrArg String.toList equal
    simp only [String.toList_append] at lists
    rcases List.append_eq_append_iff.mp lists with ⟨between, _, split⟩ | ⟨between, _, split⟩
    · exact (eq_of_isSuffix_of_mem_endings member' member ⟨between, split.symm⟩).symm
    · exact eq_of_isSuffix_of_mem_endings member member' ⟨between, split.symm⟩
  subst same
  refine ⟨?_, rfl⟩
  have lists := congrArg String.toList equal
  simp only [String.toList_append, List.append_cancel_right_eq] at lists
  exact String.toList_inj.mp lists

theorem nodup_boundNames (constants : Constants) :
    (constants.declaredEndings.map (constants.stem ++ ·)).Nodup := by
  have distinct : constants.declaredEndings.Nodup :=
    constants.declaredEndings_sublist.nodup (by decide)
  rw [List.nodup_map_iff_inj_on distinct]
  intro ending member other otherMember equal
  have within := constants.declaredEndings_sublist.subset
  exact (append_ending_inj (within member) (within otherMember) equal).2

theorem underscore_mem_of_mem_endings {ending : String} (member : ending ∈ endings) :
    '_' ∈ ending.toList := by
  have table : ∀ ending ∈ endings, '_' ∈ ending.toList := by decide
  exact table ending member

theorem underscore_mem_boundName {constants : Constants} {name : String}
    (member : name ∈ constants.declaredEndings.map (constants.stem ++ ·)) :
    '_' ∈ name.toList := by
  obtain ⟨ending, declared, rfl⟩ := List.mem_map.mp member
  have within := constants.declaredEndings_sublist.subset declared
  rw [String.toList_append]
  exact List.mem_append_right _ (underscore_mem_of_mem_endings within)

end Constants

/-! ## Classes -/

namespace Definition

/-- What may follow the class name of a method in the names of its classes. -/
def parts : List String :=
  ["Params", "Input", "Output"]

theorem name_of_mem_plans {definition : Definition} {plans : List Struct.Plan}
    (planned : definition.plans? = some plans) {plan : Struct.Plan} (member : plan ∈ plans) :
    (∃ schema, definition.kind = .object schema ∧ plan.name = Name.className definition.id) ∨
      ∃ part ∈ parts, plan.name = Name.className definition.id ++ part := by
  have ofMethod : ∀ method : Method, plan ∈ method.plans definition.id →
      ∃ part ∈ parts, plan.name = Name.className definition.id ++ part := by
    intro method inside
    simp only [Method.plans, List.mem_append, List.mem_map] at inside
    rcases inside with (⟨_, _, rfl⟩ | ⟨_, _, rfl⟩) | ⟨_, _, rfl⟩
    · exact ⟨"Params", by simp [parts], rfl⟩
    · exact ⟨"Input", by simp [parts], rfl⟩
    · exact ⟨"Output", by simp [parts], rfl⟩
  rw [plans?] at planned
  split at planned
  · rename_i schema kind
    cases planned
    rw [List.mem_singleton] at member
    exact .inl ⟨schema, kind, by rw [member]⟩
  · cases planned
    exact .inr (ofMethod _ member)
  · cases planned
    exact .inr (ofMethod _ member)
  · cases planned

/-- A struct is named for its definition, and for a part of it if that is a method. -/
theorem name_of_mem_structs {definition : Definition} {structs : List Struct}
    (made : definition.structs = .ok structs) {struct : Struct} (member : struct ∈ structs) :
    struct.name ≠ "" ∧
      ((∃ schema, definition.kind = .object schema ∧
          struct.name = Name.className definition.id) ∨
        ∃ part ∈ parts, struct.name = Name.className definition.id ++ part) := by
  obtain ⟨plans, planned, plan, inside, found⟩ := plan_of_mem_structs made member
  obtain ⟨valid, nameEqual, _, _⟩ := Struct.ofPlan_eq_ok_iff.mp found
  rw [nameEqual]
  refine ⟨?_, name_of_mem_plans planned inside⟩
  intro empty
  rw [empty] at valid
  cases valid

theorem not_underscore_mem_name {definition : Definition} {structs : List Struct}
    (made : definition.structs = .ok structs) {struct : Struct} (member : struct ∈ structs) :
    '_' ∉ struct.name.toList := by
  have plain : '_' ∉ (Name.className definition.id).toList := by
    intro inside
    cases Name.isWordChar_of_mem_className inside
  have table : ∀ part ∈ parts, '_' ∉ part.toList := by decide
  rcases (name_of_mem_structs made member).2 with ⟨_, _, equal⟩ | ⟨part, known, equal⟩
  · rw [equal]
    exact plain
  · rw [equal, String.toList_append, List.mem_append, not_or]
    exact ⟨plain, table part known⟩

/-- The name of a class does not start with a small letter. -/
theorem isLower_head_name {definition : Definition} {structs : List Struct}
    (made : definition.structs = .ok structs) {struct : Struct} (member : struct ∈ structs)
    {rest : List Char} {c : Char} (starts : struct.name.toList = c :: rest) :
    c.isLower = false := by
  have table : ∀ part ∈ parts, part.toList.head?.map Char.isLower = some false := by
    decide
  rcases (name_of_mem_structs made member).2 with ⟨_, _, equal⟩ | ⟨part, known, equal⟩
  · rw [equal] at starts
    exact Name.isLower_head_className starts
  · rw [equal, String.toList_append] at starts
    cases first : (Name.className definition.id).toList with
    | nil =>
        rw [first, List.nil_append] at starts
        have begins := table part known
        rw [starts] at begins
        exact Option.some.inj begins
    | cons d others =>
        rw [first, List.cons_append] at starts
        rw [← (List.cons.inj starts).1]
        exact Name.isLower_head_className first

/-- Only an object can take the name `Optional` for its class. -/
theorem optional_mem_names_iff {definition : Definition} {structs : List Struct}
    (made : definition.structs = .ok structs) :
    "Optional" ∈ structs.map Struct.name ↔
      ∃ schema, definition.kind = .object schema ∧
        Name.className definition.id = "Optional" := by
  constructor
  · intro member
    obtain ⟨struct, inside, named⟩ := List.mem_map.mp member
    rcases (name_of_mem_structs made inside).2 with ⟨schema, kind, equal⟩ | ⟨part, known, equal⟩
    · exact ⟨schema, kind, by rw [← equal, named]⟩
    · have ends : part.toList <:+ "Optional".toList :=
        ⟨(Name.className definition.id).toList, by
          rw [← String.toList_append, ← equal, named]⟩
      have table : ∀ part ∈ parts, ¬ part.toList <:+ "Optional".toList := by decide
      exact absurd ends (table part known)
  · intro ⟨schema, kind, equal⟩
    obtain ⟨plans, planned, related⟩ := structs_eq_ok_iff.mp made
    rw [plans?, kind] at planned
    cases planned
    cases related with
    | cons here there =>
        obtain ⟨_, nameEqual, _, _⟩ := Struct.ofPlan_eq_ok_iff.mp here
        rw [List.map_cons, nameEqual, equal]
        exact List.mem_cons_self

end Definition

namespace Module

/-- The names that a module imports. -/
def imports (generated : Module) : List String :=
  ["annotations", "dataclass"] ++ if generated.hasOptionalField then ["Optional"] else []

theorem boundNames_eq (generated : Module) :
    generated.boundNames = generated.imports ++
      generated.methods.flatMap (fun constants =>
        constants.declaredEndings.map (constants.stem ++ ·)) ++
      generated.structs.map Struct.name := by
  have classes : ∀ struct : Struct,
      struct.statements.flatMap Source.Statement.boundNames = [struct.name] := fun _ => rfl
  have imports : generated.preamble.flatMap Source.Statement.boundNames = generated.imports := by
    rw [preamble, Module.imports]
    cases generated.hasOptionalField <;> rfl
  rw [boundNames, Module.statements, List.flatMap_append, List.flatMap_append, imports,
    List.flatMap_assoc, List.flatMap_assoc]
  simp only [Constants.boundNames_statements, classes, List.map_eq_flatMap]

/-- Constants of different stems have different names. -/
theorem nodup_constantNames {methods : List Constants}
    (distinct : (methods.map Constants.stem).Nodup) :
    (methods.flatMap fun constants =>
      constants.declaredEndings.map (constants.stem ++ ·)).Nodup := by
  rw [List.nodup_flatMap]
  constructor
  · intro constants _
    exact constants.nodup_boundNames
  · refine (List.pairwise_map.mp distinct).imp ?_
    intro first second different name inFirst inSecond
    obtain ⟨ending, declared, rfl⟩ := List.mem_map.mp inFirst
    obtain ⟨other, declared', equal⟩ := List.mem_map.mp inSecond
    have within := first.declaredEndings_sublist.subset declared
    have within' := second.declaredEndings_sublist.subset declared'
    exact different (Constants.append_ending_inj within' within equal).1.symm

theorem underscore_mem_constantName {methods : List Constants} {name : String}
    (member : name ∈ methods.flatMap fun constants =>
      constants.declaredEndings.map (constants.stem ++ ·)) : '_' ∈ name.toList := by
  obtain ⟨constants, _, inside⟩ := List.mem_flatMap.mp member
  exact Constants.underscore_mem_boundName inside

theorem not_underscore_mem_import {generated : Module} {name : String}
    (member : name ∈ generated.imports) : '_' ∉ name.toList := by
  have table : ∀ name ∈ ["annotations", "dataclass"] ++ ["Optional"],
      '_' ∉ name.toList := by decide
  apply table
  rw [imports] at member
  cases needed : generated.hasOptionalField with
  | false =>
      rw [needed] at member
      exact List.mem_append_left _ member
  | true =>
      rw [needed] at member
      exact member

/-- An import that is also the name of a class is that of `Optional`. -/
theorem eq_optional_of_mem_imports {generated : Module} {name : String}
    (member : name ∈ generated.imports)
    (capital : ∀ c rest, name.toList = c :: rest → c.isLower = false) :
    generated.hasOptionalField = true ∧ name = "Optional" := by
  have small : ∀ name ∈ ["annotations", "dataclass"],
      name.toList.head?.map Char.isLower = some true := by
    decide
  rw [imports] at member
  rcases List.mem_append.mp member with fixed | extra
  · obtain ⟨c, first, lower⟩ := Option.map_eq_some_iff.mp (small name fixed)
    obtain ⟨rest, starts⟩ := List.head?_eq_some_iff.mp first
    rw [capital c rest starts] at lower
    cases lower
  · cases needed : generated.hasOptionalField with
    | false =>
        rw [needed] at extra
        cases extra
    | true =>
        rw [needed] at extra
        exact ⟨rfl, List.mem_singleton.mp extra⟩

section Classes

variable {definitions : List Definition} {generated : Module} {structs : List (List Struct)}
  {constants : List (Option Constants)}

theorem not_underscore_mem_className (holds : generated.Holds structs constants)
    (made : definitions.mapM Definition.structs = .ok structs) {name : String}
    (member : name ∈ generated.structs.map Struct.name) : '_' ∉ name.toList := by
  obtain ⟨struct, inside, rfl⟩ := List.mem_map.mp member
  obtain ⟨_, _, _, groupMade, found⟩ := holds.definition_of_mem made inside
  exact Definition.not_underscore_mem_name groupMade found

theorem isLower_head_of_mem_classNames (holds : generated.Holds structs constants)
    (made : definitions.mapM Definition.structs = .ok structs) {name : String}
    (member : name ∈ generated.structs.map Struct.name) :
    ∀ c rest, name.toList = c :: rest → c.isLower = false := by
  intro c rest starts
  obtain ⟨struct, inside, rfl⟩ := List.mem_map.mp member
  obtain ⟨_, _, _, groupMade, found⟩ := holds.definition_of_mem made inside
  exact Definition.isLower_head_name groupMade found starts

theorem optional_mem_classNames_iff (holds : generated.Holds structs constants)
    (made : definitions.mapM Definition.structs = .ok structs) :
    "Optional" ∈ generated.structs.map Struct.name ↔
      ∃ definition ∈ definitions, ∃ schema, definition.kind = .object schema ∧
        Name.className definition.id = "Optional" := by
  constructor
  · intro member
    obtain ⟨struct, inside, named⟩ := List.mem_map.mp member
    obtain ⟨definition, known, group, groupMade, found⟩ := holds.definition_of_mem made inside
    exact ⟨definition, known, (Definition.optional_mem_names_iff groupMade).mp
      (List.mem_map.mpr ⟨struct, found, named⟩)⟩
  · intro ⟨definition, known, asks⟩
    obtain ⟨group, found, groupMade⟩ := exists_of_mem_left (mapM_eq_ok_iff.mp made) known
    obtain ⟨struct, inside, named⟩ := List.mem_map.mp
      ((Definition.optional_mem_names_iff groupMade).mpr asks)
    rw [holds.structs_eq]
    exact List.mem_map.mpr ⟨struct, List.mem_flatten.mpr ⟨group, found, inside⟩, named⟩

end Classes

/-- A module binds a name twice exactly if it imports `Optional` and declares a class of
that name, which only an object can ask for. -/
theorem nodup_boundNames_iff {sourceId : String} {definitions : List Definition}
    {generated : Module} (made : ofDefinitions sourceId definitions = .ok generated) :
    generated.boundNames.Nodup ↔
      ¬ (generated.hasOptionalField = true ∧
        ∃ definition ∈ definitions, ∃ schema, definition.kind = .object schema ∧
          Name.className definition.id = "Optional") := by
  obtain ⟨_, structs, constants, structsMade, _, holds⟩ := holds_of_ofDefinitions made
  rw [← optional_mem_classNames_iff holds structsMade, boundNames_eq, List.nodup_append,
    List.nodup_append]
  constructor
  · intro ⟨_, _, apart⟩ ⟨needed, member⟩
    refine apart "Optional" (List.mem_append_left _ ?_) "Optional" member rfl
    simp [imports, needed]
  · intro free
    refine ⟨⟨?_, nodup_constantNames holds.nodup_stems, ?_⟩, holds.nodup_classNames, ?_⟩
    · rw [imports]
      cases generated.hasOptionalField <;> decide
    · intro name imported other constant equal
      subst equal
      exact not_underscore_mem_import imported (underscore_mem_constantName constant)
    · intro name bound other member equal
      subst equal
      rcases List.mem_append.mp bound with imported | constant
      · have capital := isLower_head_of_mem_classNames holds structsMade member
        obtain ⟨needed, rfl⟩ := eq_optional_of_mem_imports imported capital
        exact free ⟨needed, member⟩
      · have plain := not_underscore_mem_className holds structsMade member
        exact plain (underscore_mem_constantName constant)

/-- An object named `optional` whose only field may be absent. -/
def optionalObject : Definition where
  id := "x.optional"
  kind := .object { properties := .ofList [("note", .string none)], required := [] }
  revision := none
  description := none

/-- The module of that object, which imports the name of its class. -/
def optionalModule : Module where
  sourceId := "x.optional"
  structs := [{
    name := "Optional"
    fields := [⟨"note", "str", false, []⟩]
    description := none }]
  methods := []

theorem ofDefinitions_optionalObject :
    ofDefinitions "x.optional" [optionalObject] = .ok optionalModule := by
  decide +kernel

theorem bound_optional_twice :
    ofDefinitions "x.optional" [optionalObject] = .ok optionalModule ∧
      ¬ optionalModule.boundNames.Nodup :=
  ⟨ofDefinitions_optionalObject, by decide⟩

theorem nodup_boundNames_iff_optionalObject :
    ofDefinitions "x.optional" [optionalObject] = .ok optionalModule ∧
      (optionalModule.boundNames.Nodup ↔
        ¬ (optionalModule.hasOptionalField = true ∧
          ∃ definition ∈ [optionalObject], ∃ schema, definition.kind = .object schema ∧
            Name.className definition.id = "Optional")) :=
  ⟨ofDefinitions_optionalObject, nodup_boundNames_iff ofDefinitions_optionalObject⟩

end Module

end LexiconCompiler
