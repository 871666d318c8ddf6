import LexiconCompiler.Proofs.Module.ConstantValues
import LexiconCompiler.Proofs.Module.Conflicts
import LexiconCompiler.Proofs.Schema.Decoding

/-!
# Encodings of bodies

A method has a body for what it takes and one for what it gives, each of which it may leave
out. A body is generated as a class and as a constant for its encoding. Whether it is there
is asked three times: decoding looks for a member that is not null, a class is made for a
decoded body, and a constant for an encoding that is not empty. `encoding_agrees_iff` says
that the answers differ for one text: a body whose encoding is empty has a class and no
constant.
-/

namespace LexiconCompiler

open Traversal

namespace Method

/-- The bodies that a method may have: what it takes, and what it gives. -/
inductive Side where
  | input
  | output

namespace Side

/-- The member of a raw method that holds a body. -/
def key : Side → String
  | input => "input"
  | output => "output"

/-- What follows the name of a method in the name of the class of a body. -/
def classEnding : Side → String
  | input => "Input"
  | output => "Output"

/-- What follows the stem of a method in the name of the constant of an encoding. -/
def constantEnding : Side → String
  | input => "_INPUT_ENCODING"
  | output => "_OUTPUT_ENCODING"

/-- A body of a method, if it has that one. -/
def body : Side → Method → Option Body
  | input, method => method.input
  | output, method => method.output

/-- The encoding that a raw method gives a body, if it has that one. -/
def encoding? (side : Side) (raw : Json) : Option String :=
  ((raw.present? side.key).bind fun body => body.member? "encoding").bind Json.text?

end Side

end Method

open Method (Side)

variable {id : String} {raw : Json} {definition : Definition} {method : Method}
  {constants : Constants} {generated : Module} {name : String}

/-! ## Bodies that are decoded -/

theorem Definition.method_of_decode (decoded : Definition.decode id raw = .ok definition)
    (called : definition.kind.method? = some method) :
    ∃ site members, raw = .obj members ∧ Method.decode site members = .ok method := by
  obtain ⟨tag, members, rfl, _, _, kindDecoded⟩ := Definition.decode_eq_ok decoded
  simp only [Kind.decode] at kindDecoded
  -- of the kinds that are decoded, only queries and procedures have a method
  split at kindDecoded
  case h_2 | h_3 =>
    obtain ⟨_, _, kindEqual⟩ := map_eq_ok_iff.mp kindDecoded
    rw [← kindEqual] at called
    cases called
  case h_4 | h_5 =>
    obtain ⟨_, methodDecoded, kindEqual⟩ := map_eq_ok_iff.mp kindDecoded
    rw [← kindEqual] at called
    cases called
    exact ⟨_, members, rfl, methodDecoded⟩
  case h_10 => cases kindDecoded
  all_goals
    rw [← Except.ok.inj kindDecoded] at called
    cases called

namespace Method.Side

variable (side : Side)

/-- A body is decoded if the raw method has a member for it. -/
theorem rel_of_decode (decoded : Definition.decode id raw = .ok definition)
    (called : definition.kind.method? = some method) :
    ∃ site, Option.Rel (fun raw part => Body.decode site raw = .ok part)
      (raw.present? side.key) (side.body method) := by
  obtain ⟨site, members, rfl, methodDecoded⟩ := Definition.method_of_decode decoded called
  obtain ⟨_, input, output, _⟩ := Method.decode_eq_ok_iff.mp methodDecoded
  cases side with
  | input => exact ⟨site, input⟩
  | output => exact ⟨site, output⟩

theorem isSome_body_iff (decoded : Definition.decode id raw = .ok definition)
    (called : definition.kind.method? = some method) :
    (side.body method).isSome ↔ (raw.present? side.key).isSome := by
  obtain ⟨site, related⟩ := side.rel_of_decode decoded called
  generalize raw.present? side.key = value at related ⊢
  generalize side.body method = part at related ⊢
  cases related <;> simp

/-- A decoded body has the encoding that the raw method gives it. -/
theorem encoding?_of_decode (decoded : Definition.decode id raw = .ok definition)
    (called : definition.kind.method? = some method) :
    side.encoding? raw = (side.body method).map Body.encoding := by
  obtain ⟨site, related⟩ := side.rel_of_decode decoded called
  rw [encoding?]
  generalize raw.present? side.key = value at related ⊢
  generalize side.body method = part at related ⊢
  cases related with
  | none => rfl
  | some bodyDecoded =>
      rw [Option.bind_some, (Body.decode_eq_ok_iff.mp bodyDecoded).1]
      rfl

/-! ## Classes and constants of a body -/

/-- A class is planned for a body that is there. -/
theorem name_mem_plans_iff (id : String) (method : Method) :
    Name.className id ++ side.classEnding ∈ (method.plans id).map Struct.Plan.name ↔
      (side.body method).isSome := by
  simp only [plans, List.map_append, List.map_map, List.mem_append, List.mem_map,
    Option.mem_toList, Function.comp_apply, parametersPlan, inputPlan, outputPlan,
    String.append_right_inj]
  cases side <;> simp [classEnding, body, Option.isSome_iff_exists]

/-- A constant is assigned the encoding of a body, unless that is empty. -/
theorem mem_assigned_iff (definition : Definition) (method : Method) (value : Source.Literal) :
    (side.constantEnding, value) ∈ (definition.constantsOf method).assigned ↔
      ∃ body ∈ side.body method, body.encoding ≠ "" ∧ .str body.encoding = value := by
  have named : ∀ (ending : String) (part : Option Body),
      (side.constantEnding, value) ∈
          Constants.assignedEncoding ending (part.map Body.encoding) ↔
        ending = side.constantEnding ∧
          ∃ body ∈ part, body.encoding ≠ "" ∧ .str body.encoding = value := by
    intro ending part
    cases part with
    | none => simp [Constants.assignedEncoding]
    | some body =>
        by_cases silent : body.encoding = "" <;> simp [Constants.assignedEncoding, silent]
  simp only [Constants.assigned, Definition.constantsOf, List.mem_append, named]
  cases side <;> simp [constantEnding, body]

end Method.Side

/-! ## Classes and constants of a module -/

theorem Constants.assign_mem_statements_iff {value : Source.Literal} :
    .assign name value ∈ constants.statements ↔
      ∃ entry ∈ constants.assigned, constants.stem ++ entry.1 = name ∧ entry.2 = value := by
  simp [statements_eq, comments, assignment]

theorem Constants.dataclass_not_mem_statements {body : List Source.BodyLine} :
    .dataclass name body ∉ constants.statements := by
  simp [statements_eq, comments, assignment]

namespace Module

/-- A module assigns some value to a name. -/
def AssignsConstant (generated : Module) (name : String) : Prop :=
  ∃ value, .assign name value ∈ generated.statements

/-- A module declares a class of a name. -/
def DeclaresClass (generated : Module) (name : String) : Prop :=
  ∃ body, .dataclass name body ∈ generated.statements

theorem assignsConstant_iff :
    generated.AssignsConstant name ↔ ∃ constants ∈ generated.methods,
      ∃ entry ∈ constants.assigned, constants.stem ++ entry.1 = name := by
  have assigned : ∀ value, .assign name value ∈ generated.statements ↔
      ∃ constants ∈ generated.methods, ∃ entry ∈ constants.assigned,
        constants.stem ++ entry.1 = name ∧ entry.2 = value := by
    simp [statements, preamble, Struct.statements, Constants.assign_mem_statements_iff]
  simp only [AssignsConstant, assigned]
  constructor
  · rintro ⟨value, constants, among, entry, member, named, -⟩
    exact ⟨constants, among, entry, member, named⟩
  · rintro ⟨constants, among, entry, member, named⟩
    exact ⟨entry.2, constants, among, entry, member, named, rfl⟩

theorem declaresClass_iff :
    generated.DeclaresClass name ↔ name ∈ generated.structs.map Struct.name := by
  have declared : ∀ body, .dataclass name body ∈ generated.statements ↔
      ∃ struct ∈ generated.structs, name = struct.name ∧ body = struct.body := by
    simp [statements, preamble, Struct.statements, Constants.dataclass_not_mem_statements]
  simp only [DeclaresClass, declared, List.mem_map]
  constructor
  · rintro ⟨body, struct, member, named, -⟩
    exact ⟨struct, member, named.symm⟩
  · rintro ⟨struct, member, named⟩
    exact ⟨struct.body, struct, member, named.symm, rfl⟩

end Module

/-! ## The module of a method -/

theorem Definition.plans?_of_method (called : definition.kind.method? = some method) :
    definition.plans? = some (method.plans definition.id) := by
  rw [plans?]
  cases same : definition.kind with
  | query other | procedure other =>
      rw [same] at called
      cases called
      rfl
  | _ => simp [same, Kind.method?] at called

namespace Module

variable {sourceId : String}

theorem classNames_of_method (called : definition.kind.method? = some method)
    (made : ofDefinitions sourceId [definition] = .ok generated) :
    generated.structs.map Struct.name = (method.plans definition.id).map Struct.Plan.name := by
  obtain ⟨alone, rfl⟩ := eq_of_ofDefinitions made
  obtain ⟨structs, structsMade⟩ := (alone definition (List.mem_singleton_self _)).1
  obtain ⟨plans, planned, named⟩ := Definition.names_of_structs structsMade
  cases planned.symm.trans (Definition.plans?_of_method called)
  rw [← named, ← Definition.madeStructs_of_ok structsMade, List.flatMap_singleton]

theorem methods_of_method (called : definition.kind.method? = some method)
    (made : ofDefinitions sourceId [definition] = .ok generated) :
    generated.methods = [definition.constantsOf method] := by
  obtain ⟨alone, rfl⟩ := eq_of_ofDefinitions made
  obtain ⟨constants, constantsMade⟩ := (alone definition (List.mem_singleton_self _)).2
  cases constants with
  | none => simp [Definition.constants, called, bind_eq_ok_iff] at constantsMade
  | some constants =>
      obtain ⟨other, same, rfl, _⟩ := Definition.constants_eq_ok_some_iff.mp constantsMade
      cases same.symm.trans called
      dsimp only
      rw [List.flatMap_singleton, Definition.madeConstants_of_ok constantsMade, Option.toList_some]

theorem declaresClass_of_method_iff (side : Side)
    (called : definition.kind.method? = some method)
    (made : ofDefinitions sourceId [definition] = .ok generated) :
    generated.DeclaresClass (Name.className definition.id ++ side.classEnding) ↔
      (side.body method).isSome := by
  rw [declaresClass_iff, classNames_of_method called made, side.name_mem_plans_iff]

theorem assignsConstant_of_method_iff (side : Side)
    (called : definition.kind.method? = some method)
    (made : ofDefinitions sourceId [definition] = .ok generated) :
    generated.AssignsConstant
        (Name.screamingSnake (Name.className definition.id) ++ side.constantEnding) ↔
      ∃ body ∈ side.body method, body.encoding ≠ "" := by
  rw [assignsConstant_iff, methods_of_method called made]
  constructor
  · rintro ⟨constants, among, ⟨ending, value⟩, assigned, named⟩
    cases List.mem_singleton.mp among
    have same : ending = side.constantEnding := (String.append_right_inj _).mp named
    rw [same, side.mem_assigned_iff] at assigned
    obtain ⟨body, present, spoken, -⟩ := assigned
    exact ⟨body, present, spoken⟩
  · rintro ⟨body, present, spoken⟩
    refine ⟨_, List.mem_singleton_self _, (side.constantEnding, .str body.encoding), ?_, rfl⟩
    exact (side.mem_assigned_iff definition method _).mpr ⟨body, present, spoken, rfl⟩

/-- For each body, the module of a method declares a class exactly if the raw method has the
body, and assigns a constant exactly if the encoding of the body is not empty. So the two go
together unless the raw method has a body whose encoding is the empty text. -/
theorem encoding_agrees_iff (side : Side) (decoded : Definition.decode id raw = .ok definition)
    (called : definition.kind.method? = some method)
    (made : ofDefinitions sourceId [definition] = .ok generated) :
    (generated.DeclaresClass (Name.className id ++ side.classEnding) ↔
      (raw.present? side.key).isSome) ∧
    (generated.AssignsConstant
        (Name.screamingSnake (Name.className id) ++ side.constantEnding) ↔
      ∃ encoding, side.encoding? raw = some encoding ∧ encoding ≠ "") ∧
    ((generated.AssignsConstant
          (Name.screamingSnake (Name.className id) ++ side.constantEnding) ↔
        generated.DeclaresClass (Name.className id ++ side.classEnding)) ↔
      side.encoding? raw ≠ some "") := by
  obtain ⟨_, _, _, _, rfl, _⟩ := Definition.decode_eq_ok decoded
  rw [declaresClass_of_method_iff side called made, assignsConstant_of_method_iff side called made,
    ← side.isSome_body_iff decoded called, side.encoding?_of_decode decoded called]
  cases side.body method with
  | none => simp
  | some body => by_cases silent : body.encoding = "" <;> simp [silent]

/-- A procedure whose input has an empty encoding. -/
def rawPut : Json :=
  .obj [("type", .str "procedure"),
    ("input", .obj [("encoding", .str ""), ("schema", .obj [("properties", .obj [])])]),
    ("output", .obj [("encoding", .str "text/plain"), ("schema", .obj [("properties", .obj [])])])]

/-- The method of that procedure. -/
def putMethod : Method where
  parameters := none
  input := some { encoding := "", schema := { properties := .empty, required := [] } }
  output := some { encoding := "text/plain", schema := { properties := .empty, required := [] } }
  errors := []

/-- The procedure, decoded. -/
def putProcedure : Definition where
  id := "x.put"
  kind := .procedure putMethod
  revision := none
  description := none

/-- The module of that procedure. -/
def putModule : Module where
  sourceId := "x.put"
  structs := [
    { name := "PutInput", fields := [], description := some "Input body for x.put ()." },
    { name := "PutOutput", fields := [],
      description := some "Output body for x.put (text/plain)." }]
  methods := [{
    stem := "PUT"
    id := "x.put"
    kind := "procedure"
    description := none
    inputEncoding := some ""
    outputEncoding := some "text/plain"
    errors := [] }]

theorem decode_rawPut : Definition.decode "x.put" rawPut = .ok putProcedure := by
  rfl

theorem ofDefinitions_putProcedure : ofDefinitions "x.put" [putProcedure] = .ok putModule := by
  decide +kernel

theorem putModule_lacks_input_encoding :
    Definition.decode "x.put" rawPut = .ok putProcedure ∧
      ofDefinitions "x.put" [putProcedure] = .ok putModule ∧
      putModule.DeclaresClass "PutInput" ∧ ¬ putModule.AssignsConstant "PUT_INPUT_ENCODING" := by
  refine ⟨decode_rawPut, ofDefinitions_putProcedure, ?_, ?_⟩
  · rw [declaresClass_iff]
    decide
  · rw [assignsConstant_iff]
    decide

theorem encoding_agrees_iff_putModule :
    ¬ (putModule.AssignsConstant "PUT_INPUT_ENCODING" ↔ putModule.DeclaresClass "PutInput") ∧
      (putModule.AssignsConstant "PUT_OUTPUT_ENCODING" ↔ putModule.DeclaresClass "PutOutput") := by
  have stem : Name.screamingSnake (Name.className "x.put") = "PUT" := by decide +kernel
  have className : Name.className "x.put" = "Put" := by decide +kernel
  have input := (encoding_agrees_iff .input decode_rawPut rfl ofDefinitions_putProcedure).2.2
  have output := (encoding_agrees_iff .output decode_rawPut rfl ofDefinitions_putProcedure).2.2
  rw [stem, className] at input output
  exact ⟨fun agree => input.mp agree (by decide), output.mpr (by decide)⟩

end Module

end LexiconCompiler
