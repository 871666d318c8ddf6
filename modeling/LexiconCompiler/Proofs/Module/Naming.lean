import LexiconCompiler.Proofs.Module.Bindings
import LexiconCompiler.Proofs.Module.Fields
import LexiconCompiler.Proofs.Module.Path
import LexiconCompiler.Proofs.Name.Declarable
import LexiconCompiler.Proofs.Name.Pascal

/-!
# Names made from an id

The last segment of an id names the classes, the stem and the file that are generated for
it. The stem is made from the class name and the file name from the segment itself, so they
have the same words only if none is lost in the class name. Whether the names can be
declared is decided by the first letter or digit of the segment, and whether they can tells
whether a definition with declarable fields is generated at all.
-/

namespace LexiconCompiler

open Name Traversal

/-! ## Stems -/

/-- The stem of a method is the raised name of its file exactly if every two words of the
last segment that follow each other are told apart in `PascalCase`. -/
theorem Definition.stem_keeps_words_iff {definition : Definition} {constants : Constants}
    (made : definition.constants = .ok (some constants)) :
    (constants.stem = screamingSnake (lastSegment definition.id) ↔
      (words (lastSegment definition.id)).IsChain fun word next =>
        beginsWithLetter next = true ∧ isLoneLetter word = false) ∧
    ((words (pascal (lastSegment definition.id))).map String.toLower =
        (words (lastSegment definition.id)).map String.toLower ↔
      (words (lastSegment definition.id)).IsChain fun word next =>
        beginsWithLetter next = true ∧ isLoneLetter word = false) ∧
    screamingSnake (lastSegment definition.id) = (snake (lastSegment definition.id)).toUpper ∧
    ∀ root, (Module.path definition.id root).parts.getLast? =
      some (snake (lastSegment definition.id) ++ ".py") := by
  obtain ⟨method, _, rfl, _⟩ := constants_eq_ok_some_iff.mp made
  refine ⟨?_, ?_, ?_, ?_⟩
  · calc screamingSnake (className definition.id) = screamingSnake (lastSegment definition.id)
        ↔ loweredWords (className definition.id).toList =
            loweredWords (lastSegment definition.id).toList := by
          rw [← String.toList_inj, toList_screamingSnake, toList_screamingSnake,
            screamingSnakeOf_inj]
      _ ↔ (words (lastSegment definition.id)).IsChain KeepsApart :=
          loweredWords_pascal_iff (lastSegment definition.id)
  · rw [map_toLower_words, map_toLower_words,
      (List.map_injective_iff.mpr fun _ _ => String.ofList_injective).eq_iff]
    exact loweredWords_pascal_iff (lastSegment definition.id)
  · change _ = String.map Char.toUpper (snake (lastSegment definition.id))
    rw [← String.toList_inj, toList_screamingSnake, String.toList_map, toList_snake,
      screamingSnakeOf]
  · intro root
    rw [Module.path_eq, List.getLast?_concat, Module.fileName]

/-- A query whose name has a word that begins with a digit. -/
def numberedQuery : Definition where
  id := "x.get-2Codes"
  kind := .query {
    parameters := some ⟨"params", .ofList [("limit", .integer)]⟩
    input := none
    output := some { encoding := "application/json", schema := ⟨.ofList [], []⟩ }
    errors := [] }
  revision := none
  description := none

/-- The constants of the query, whose stem has lost a word. -/
def numberedConstants : Constants where
  stem := "GET2_CODES"
  id := "x.get-2Codes"
  kind := "query"
  description := none
  inputEncoding := none
  outputEncoding := some "application/json"
  errors := []

theorem constants_numberedQuery : numberedQuery.constants = .ok (some numberedConstants) := by
  decide +kernel

theorem Definition.stem_keeps_words_iff_numberedQuery :
    numberedQuery.constants = .ok (some numberedConstants) ∧
      numberedConstants.stem ≠ screamingSnake (lastSegment numberedQuery.id) := by
  refine ⟨constants_numberedQuery, ?_⟩
  rw [ne_eq, (stem_keeps_words_iff constants_numberedQuery).1]
  decide +kernel

/-! ## Definitions that can be generated -/

/-- The names of all the fields that a method declares. -/
def Method.propertyNames (method : Method) : List String :=
  method.parameters.toList.flatMap (·.properties.keys) ++
    method.input.toList.flatMap (·.schema.properties.keys) ++
    method.output.toList.flatMap (·.schema.properties.keys)

/-- The names of all the fields that a definition is generated with. -/
def Kind.propertyNames : Kind → List String
  | object schema => schema.properties.keys
  | query method => method.propertyNames
  | procedure method => method.propertyNames
  | _ => []

theorem Method.mem_propertyNames_of_mem_plans {id : String} {method : Method}
    {plan : Struct.Plan} (member : plan ∈ method.plans id) :
    ∀ name ∈ plan.schema.properties.keys, name ∈ method.propertyNames := by
  intro name inside
  simp only [plans, List.mem_append, List.mem_map] at member
  simp only [propertyNames, List.mem_append, List.mem_flatMap]
  rcases member with (⟨parameters, declared, rfl⟩ | ⟨body, declared, rfl⟩) | ⟨body, declared, rfl⟩
  · exact .inl (.inl ⟨parameters, declared, inside⟩)
  · exact .inl (.inr ⟨body, declared, inside⟩)
  · exact .inr ⟨body, declared, inside⟩

namespace Definition

variable {definition : Definition} {plans : List Struct.Plan}

theorem mem_propertyNames_of_mem_plans (planned : definition.plans? = some plans)
    {plan : Struct.Plan} (member : plan ∈ plans) :
    ∀ name ∈ plan.schema.properties.keys, name ∈ definition.kind.propertyNames := by
  rw [plans?] at planned
  split at planned
  · rename_i schema kind
    cases planned
    rw [List.mem_singleton] at member
    rw [member, kind]
    exact fun _ inside => inside
  · rename_i method kind
    cases planned
    rw [kind]
    exact Method.mem_propertyNames_of_mem_plans member
  · rename_i method kind
    cases planned
    rw [kind]
    exact Method.mem_propertyNames_of_mem_plans member
  · cases planned

/-- A definition with declarable fields has structs exactly if all its classes can be
declared. -/
theorem succeeds_structs_iff (planned : definition.plans? = some plans)
    (valid : ∀ name ∈ definition.kind.propertyNames, isDeclarable name = true) :
    Succeeds definition.structs ↔ ∀ plan ∈ plans, isDeclarable plan.name = true := by
  rw [structs, planned, succeeds_mapM_iff]
  apply forall₂_congr
  intro plan member
  have fields : Succeeds (Field.ofSchema definition.id plan.schema) :=
    Field.succeeds_ofSchema_iff.mpr fun name inside =>
      valid name (mem_propertyNames_of_mem_plans planned member name inside)
  obtain ⟨made, given⟩ := fields
  constructor
  · rintro ⟨struct, found⟩
    exact (Struct.ofPlan_eq_ok_iff.mp found).1
  · intro declared
    exact ⟨⟨plan.name, made, plan.description⟩,
      Struct.ofPlan_eq_ok_iff.mpr ⟨declared, rfl, rfl, given⟩⟩

/-- A method has constants exactly if its name starts with a letter. -/
theorem succeeds_constants_iff {method : Method} (kind : definition.kind.method? = some method) :
    Succeeds definition.constants ↔ StartsWithLetter (lastSegment definition.id) := by
  rw [← startsWithLetter_pascal_iff, ← isDeclarable_screamingSnake_iff]
  simp only [constants, kind, succeeds_bind_iff, declarable_eq_ok_iff]
  constructor
  · rintro ⟨stem, ⟨valid, _⟩, _⟩
    exact valid
  · intro valid
    exact ⟨_, ⟨valid, rfl⟩, succeeds_ok _⟩

theorem exists_plans_of_method {method : Method} (kind : definition.kind.method? = some method) :
    ∃ plans, definition.plans? = some plans := by
  rw [plans?]
  cases same : definition.kind with
  | query method => exact ⟨_, rfl⟩
  | procedure method => exact ⟨_, rfl⟩
  | _ => simp [same, Kind.method?] at kind

theorem isWordChar_of_mem_part {part : String} (known : part ∈ parts) :
    ∀ c ∈ part.toList, isWordChar c = true := by
  have table : ∀ part ∈ parts, part.toList.all isWordChar = true := by decide
  exact List.all_eq_true.mp (table part known)

/-- The classes of a method can be declared if its name starts with a letter. -/
theorem isDeclarable_of_mem_plans {method : Method}
    (kind : definition.kind.method? = some method) (planned : definition.plans? = some plans)
    (starts : StartsWithLetter (lastSegment definition.id)) :
    ∀ plan ∈ plans, isDeclarable plan.name = true := by
  have free : ∀ part ∈ parts, ∀ word ∈ reservedWords, ¬ part.toList <:+ word.toList := by
    decide
  intro plan member
  rcases name_of_mem_plans planned member with ⟨schema, object, _⟩ | ⟨part, known, named⟩
  · rw [object] at kind
    cases kind
  · rw [named]
    exact isDeclarable_pascal_append starts (isWordChar_of_mem_part known) (free part known)

/-- The name of every class has the form of a class name. -/
theorem isClassName_of_mem_structs {structs : List Struct}
    (made : definition.structs = .ok structs) {struct : Struct} (member : struct ∈ structs) :
    IsClassName struct.name := by
  obtain ⟨_, _, plan, _, found⟩ := plan_of_mem_structs made member
  obtain ⟨valid, named, _, _⟩ := Struct.ofPlan_eq_ok_iff.mp found
  apply isClassName_of_isDeclarable (named ▸ valid)
  · intro c inside
    rcases (name_of_mem_structs made member).2 with ⟨_, _, equal⟩ | ⟨part, known, equal⟩
    · rw [equal] at inside
      exact isWordChar_of_mem_className inside
    · rw [equal, String.toList_append, List.mem_append] at inside
      exact inside.elim isWordChar_of_mem_className (isWordChar_of_mem_part known c)
  · intro c first
    obtain ⟨rest, starts⟩ := List.head?_eq_some_iff.mp first
    exact isLower_head_name made member starts

/-- Which definitions can be generated, of those whose fields can be declared: a method can
if the first letter or digit of its name is a letter, and an object can if, besides, its
class name is not reserved. The names that are generated are capitalized ones. -/
theorem generated_iff_startsWithLetter
    (valid : ∀ name ∈ definition.kind.propertyNames, isDeclarable name = true) :
    (∀ method, definition.kind.method? = some method →
      (Succeeds definition.structs ∧ Succeeds definition.constants ↔
        StartsWithLetter (lastSegment definition.id))) ∧
    (∀ schema, definition.kind = .object schema →
      (Succeeds definition.structs ↔
        StartsWithLetter (lastSegment definition.id) ∧
          pascal (lastSegment definition.id) ∉ ["None", "True", "False"])) ∧
    (∀ structs, definition.structs = .ok structs →
      ∀ struct ∈ structs, IsClassName struct.name) ∧
    ∀ constants, definition.constants = .ok (some constants) → IsStem constants.stem := by
  refine ⟨?_, ?_, ?_, ?_⟩
  · intro method kind
    obtain ⟨plans, planned⟩ := exists_plans_of_method kind
    rw [succeeds_constants_iff kind, succeeds_structs_iff planned valid]
    exact and_iff_right_of_imp (isDeclarable_of_mem_plans kind planned)
  · intro schema kind
    have planned : definition.plans? =
        some [⟨className definition.id, schema, definition.description⟩] := by
      rw [plans?, kind]
    rw [succeeds_structs_iff planned valid, List.forall_mem_singleton]
    exact isDeclarable_pascal_iff
  · exact fun structs made struct member => isClassName_of_mem_structs made member
  · intro constants made
    obtain ⟨method, kind, same, declared⟩ := constants_eq_ok_some_iff.mp made
    rw [same] at declared ⊢
    exact isStem_screamingSnake (isDeclarable_screamingSnake_iff.mp declared)

theorem generated_iff_startsWithLetter_numberedQuery :
    (∀ name ∈ numberedQuery.kind.propertyNames, isDeclarable name = true) ∧
      Succeeds numberedQuery.structs ∧ IsStem numberedConstants.stem := by
  have valid : ∀ name ∈ numberedQuery.kind.propertyNames, isDeclarable name = true := by
    decide
  have generated := generated_iff_startsWithLetter valid
  have starts : StartsWithLetter (lastSegment numberedQuery.id) := ⟨'g', by decide, rfl⟩
  exact ⟨valid, ((generated.1 _ rfl).mpr starts).1,
    generated.2.2.2 numberedConstants constants_numberedQuery⟩

end Definition

end LexiconCompiler
