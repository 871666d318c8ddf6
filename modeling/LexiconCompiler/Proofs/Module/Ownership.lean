import LexiconCompiler.Proofs.Module.Bindings

/-!
# Owners of generated names

While a module is drafted, every name belongs to the definition that declares it. A
definition is refused for the first thing that stands in its way: its own failure, or a
name that another definition owns. `rejects_iff_of_owned` tells which error that gives.
-/

namespace LexiconCompiler

open Traversal

namespace Definition

/-- A definition declares a name: that of one of its structs, or the stem of its
constants. -/
inductive Declares (definition : Definition) : Name.Generated → Prop where
  | struct {structs : List Struct} {struct : Struct}
      (made : definition.structs = .ok structs) (member : struct ∈ structs) :
      Declares definition (.ofClass struct.name)
  | constants {constants : Constants} (made : definition.constants = .ok (some constants)) :
      Declares definition (.ofConstants constants.stem)

theorem declares_iff {definition : Definition} {structs : List Struct}
    {constants : Option Constants} (structsMade : definition.structs = .ok structs)
    (constantsMade : definition.constants = .ok constants) {name : Name.Generated} :
    definition.Declares name ↔
      name ∈ Module.classNames structs ++ Module.stemNames constants.toList := by
  rw [List.mem_append, Module.classNames, Module.stemNames, List.mem_map, List.mem_map]
  constructor
  · intro declares
    cases declares with
    | struct made member =>
        cases made.symm.trans structsMade
        exact .inl ⟨_, member, rfl⟩
    | constants made =>
        cases made.symm.trans constantsMade
        exact .inr ⟨_, List.mem_cons_self, rfl⟩
  · rintro (⟨struct, member, rfl⟩ | ⟨group, member, rfl⟩)
    · exact .struct structsMade member
    · cases constants with
      | none => cases member
      | some constants =>
          cases List.mem_singleton.mp member
          exact .constants constantsMade

/-- A struct of a definition has the name that is planned for it. -/
theorem names_of_structs {definition : Definition} {structs : List Struct}
    (made : definition.structs = .ok structs) :
    ∃ plans, definition.plans? = some plans ∧
      structs.map Struct.name = plans.map Struct.Plan.name := by
  obtain ⟨plans, planned, related⟩ := structs_eq_ok_iff.mp made
  refine ⟨plans, planned, ?_⟩
  clear planned made
  induction related with
  | nil => rfl
  | cons here there ih =>
      rw [List.map_cons, List.map_cons, ih, (Struct.ofPlan_eq_ok_iff.mp here).2.1]

theorem plans_names_sublist (id : String) (method : Method) :
    ((method.plans id).map Struct.Plan.name).Sublist
      (parts.map (Name.className id ++ ·)) := by
  have optional : ∀ {α : Type} (part : Option α) (plan : α → Struct.Plan) (name : String),
      (∀ value, (plan value).name = name) →
        ((part.toList.map plan).map Struct.Plan.name).Sublist [name] := by
    intro α part plan name named
    cases part with
    | none => exact List.nil_sublist _
    | some value => simp [named]
  have first := optional method.parameters (Method.parametersPlan id) _ fun _ => rfl
  have second := optional method.input (Method.inputPlan id) _ fun _ => rfl
  have third := optional method.output (Method.outputPlan id) _ fun _ => rfl
  rw [Method.plans, List.map_append, List.map_append]
  exact (first.append second).append third

/-- No definition asks for a class name twice. -/
theorem nodup_names_structs {definition : Definition} {structs : List Struct}
    (made : definition.structs = .ok structs) : (structs.map Struct.name).Nodup := by
  have ofMethod : ∀ method : Method,
      ((method.plans definition.id).map Struct.Plan.name).Nodup := by
    intro method
    apply (plans_names_sublist definition.id method).nodup
    rw [List.nodup_map_iff_inj_on (by decide)]
    intro part _ other _ equal
    exact (String.append_right_inj _).mp equal
  obtain ⟨plans, planned, equal⟩ := names_of_structs made
  rw [equal]
  rw [plans?] at planned
  split at planned
  · cases planned
    simp
  · cases planned
    exact ofMethod _
  · cases planned
    exact ofMethod _
  · cases planned

end Definition

namespace Module

/-- The error of a definition that asks for a name which another one owns. -/
def taken (definition : Definition) (name : Name.Generated) (owner : String) : Error where
  cause := .schema (.alreadyGenerated name owner)
  identifier := some definition.id
  tag := some definition.kind.tag

namespace Draft

/-- A definition is given some names, which nobody owned before. -/
structure Gives (definition : Definition) (names : List Name.Generated)
    (before after : Draft) : Prop where
  free : ∀ name ∈ names, before.owners.get? name = none
  get?_owners : ∀ name, after.owners.get? name =
    if name ∈ names then some definition.id else before.owners.get? name

theorem Gives.refl (definition : Definition) (draft : Draft) :
    Gives definition [] draft draft where
  free := by simp
  get?_owners := by simp

theorem Gives.trans {definition : Definition} {names others : List Name.Generated}
    {first second third : Draft} (earlier : Gives definition names first second)
    (later : Gives definition others second third) :
    Gives definition (names ++ others) first third where
  free := by
    intro name member
    rcases List.mem_append.mp member with here | there
    · exact earlier.free name here
    · have free := later.free name there
      rw [earlier.get?_owners] at free
      split at free
      · cases free
      · exact free
  get?_owners := by
    intro name
    rw [later.get?_owners, earlier.get?_owners]
    by_cases here : name ∈ names <;> by_cases there : name ∈ others <;> simp [here, there]

variable {definition : Definition} {draft before after : Draft} {name : Name.Generated}

/-! ## Claims -/

theorem claim_eq_ok_iff {owners : Table Name.Generated String} :
    draft.claim definition name = .ok owners ↔
      draft.owners.get? name = none ∧ owners = draft.owners.insert name definition.id := by
  rw [claim]
  cases draft.owners.get? name with
  | none => simp [eq_comm]
  | some owner => simp

theorem claim_eq_error_iff {error : Error} :
    draft.claim definition name = .error error ↔
      ∃ owner, draft.owners.get? name = some owner ∧ error = taken definition name owner := by
  rw [claim]
  cases draft.owners.get? name with
  | none => simp
  | some owner => simp [taken, eq_comm]

theorem succeeds_claim_iff (definition : Definition) :
    Succeeds (draft.claim definition name) ↔ draft.owners.get? name = none := by
  simp [Succeeds, claim_eq_ok_iff]

theorem gives_of_addStruct {struct : Struct}
    (added : addStruct definition before struct = .ok after) :
    Gives definition [.ofClass struct.name] before after := by
  obtain ⟨owners, claimed, equal⟩ := bind_eq_ok_iff.mp added
  obtain ⟨free, rfl⟩ := claim_eq_ok_iff.mp claimed
  cases equal
  exact ⟨by simpa using free, fun name => by simp [Table.get?_insert]⟩

theorem gives_of_addStructs {structs : List Struct}
    (added : structs.foldlM (addStruct definition) before = .ok after) :
    Gives definition (classNames structs) before after := by
  induction structs generalizing before with
  | nil =>
      cases added
      exact Gives.refl _ _
  | cons struct structs ih =>
      rw [List.foldlM_cons] at added
      obtain ⟨between, first, rest⟩ := bind_eq_ok_iff.mp added
      exact (gives_of_addStruct first).trans (ih rest)

theorem gives_of_addConstants {constants : Option Constants}
    (added : before.addConstants definition constants = .ok after) :
    Gives definition (stemNames constants.toList) before after := by
  cases constants with
  | none =>
      cases added
      exact Gives.refl _ _
  | some constants =>
      obtain ⟨owners, claimed, equal⟩ := bind_eq_ok_iff.mp added
      obtain ⟨free, rfl⟩ := claim_eq_ok_iff.mp claimed
      cases equal
      exact ⟨by simpa [stemNames] using free, fun name => by simp [stemNames, Table.get?_insert]⟩

/-- A definition that is added owns the names that it declares, which were free. -/
theorem owns_of_add (added : before.add definition = .ok after) :
    (∀ name, definition.Declares name → before.owners.get? name = none) ∧
      ∀ name owner, after.owners.get? name = some owner ↔
        before.owners.get? name = some owner ∨
          definition.Declares name ∧ definition.id = owner := by
  obtain ⟨structs, structsMade, added⟩ := bind_eq_ok_iff.mp added
  obtain ⟨between, first, added⟩ := bind_eq_ok_iff.mp added
  obtain ⟨constants, constantsMade, second⟩ := bind_eq_ok_iff.mp added
  have gives := (gives_of_addStructs first).trans (gives_of_addConstants second)
  have declares : ∀ name, definition.Declares name ↔
      name ∈ classNames structs ++ stemNames constants.toList :=
    fun name => definition.declares_iff structsMade constantsMade
  constructor
  · intro name declared
    exact gives.free name ((declares name).mp declared)
  · intro name owner
    rw [gives.get?_owners, declares name]
    split
    · rename_i asked
      simp [gives.free name asked, asked]
    · rename_i other
      simp [other]

/-- A draft in which each name belongs to the definition of a list that declares it. -/
def Owned (definitions : List Definition) (draft : Draft) : Prop :=
  ∀ name owner, draft.owners.get? name = some owner ↔
    ∃ definition ∈ definitions, definition.Declares name ∧ definition.id = owner

theorem owned_of_addAll {definitions : List Definition}
    (added : definitions.foldlM add .empty = .ok after) : Owned definitions after := by
  have general : ∀ (later earlier : List Definition) (before : Draft), Owned earlier before →
      later.foldlM add before = .ok after → Owned (earlier ++ later) after := by
    intro later
    induction later with
    | nil =>
        intro earlier before owned added
        cases added
        rwa [List.append_nil]
    | cons definition rest ih =>
        intro earlier before owned added
        rw [List.foldlM_cons] at added
        obtain ⟨between, first, added⟩ := bind_eq_ok_iff.mp added
        have owned' : Owned (earlier ++ [definition]) between := by
          intro name owner
          rw [(owns_of_add first).2, owned]
          simp [or_and_right, exists_or]
        have whole := ih (earlier ++ [definition]) between owned' added
        rwa [List.append_assoc] at whole
  exact general definitions [] .empty (by intro name owner; simp [empty]) added

/-! ## Refusals -/

theorem succeeds_addStruct_iff (definition : Definition) {struct : Struct} :
    Succeeds (addStruct definition draft struct) ↔
      draft.owners.get? (.ofClass struct.name) = none := by
  rw [addStruct, succeeds_bind_iff, ← succeeds_claim_iff definition]
  simp only [succeeds_ok, and_true, ← succeeds_iff]

theorem addStruct_eq_error_iff {struct : Struct} {error : Error} :
    addStruct definition draft struct = .error error ↔
      draft.claim definition (.ofClass struct.name) = .error error := by
  rw [addStruct, bind_eq_error_iff]
  simp

/-- Structs whose names differ are refused for the first whose name somebody owned before
any of them was added. -/
theorem addStructs_eq_error_iff {structs : List Struct} {error : Error}
    (distinct : (structs.map Struct.name).Nodup) :
    structs.foldlM (addStruct definition) draft = .error error ↔
      FailsFirst (fun struct => draft.claim definition (.ofClass struct.name))
        structs error := by
  induction structs generalizing draft with
  | nil =>
      apply iff_of_false _ failsFirst_nil
      intro impossible
      cases impossible
  | cons struct structs ih =>
      rw [List.map_cons, List.nodup_cons] at distinct
      have tail : ∀ between, addStruct definition draft struct = .ok between →
          (structs.foldlM (addStruct definition) between = .error error ↔
            FailsFirst (fun struct => draft.claim definition (.ofClass struct.name))
              structs error) := by
        intro between added
        have unchanged : ∀ other ∈ structs, between.owners.get? (.ofClass other.name) =
            draft.owners.get? (.ofClass other.name) := by
          intro other member
          rw [(gives_of_addStruct added).get?_owners, if_neg]
          rw [List.mem_singleton, Name.Generated.ofClass.injEq]
          intro equal
          exact distinct.1 (List.mem_map.mpr ⟨other, member, equal⟩)
        rw [ih distinct.2]
        apply failsFirst_congr
        · intro other member
          rw [← succeeds_iff, ← succeeds_iff, succeeds_claim_iff, succeeds_claim_iff,
            unchanged other member]
        · intro other member
          rw [claim_eq_error_iff, claim_eq_error_iff, unchanged other member]
      rw [List.foldlM_cons, bind_eq_error_iff, failsFirst_cons, addStruct_eq_error_iff,
        ← succeeds_iff, succeeds_claim_iff, ← succeeds_addStruct_iff definition]
      constructor
      · rintro (refused | ⟨between, added, later⟩)
        · exact .inl refused
        · exact .inr ⟨⟨between, added⟩, (tail between added).mp later⟩
      · rintro (refused | ⟨⟨between, added⟩, later⟩)
        · exact .inl refused
        · exact .inr ⟨between, added, (tail between added).mpr later⟩

theorem succeeds_addStructs_iff {structs : List Struct}
    (distinct : (structs.map Struct.name).Nodup) :
    Succeeds (structs.foldlM (addStruct definition) draft) ↔
      ∀ struct ∈ structs, draft.owners.get? (.ofClass struct.name) = none := by
  constructor
  · rintro ⟨after, added⟩ struct member
    exact (gives_of_addStructs added).free _ (List.mem_map.mpr ⟨struct, member, rfl⟩)
  · intro free
    by_contra refused
    obtain ⟨error, failed⟩ := not_succeeds_iff.mp refused
    obtain ⟨first, struct, rest, rfl, _, claimed⟩ :=
      (addStructs_eq_error_iff distinct).mp failed
    obtain ⟨owner, owned, _⟩ := claim_eq_error_iff.mp claimed
    rw [free struct (by simp)] at owned
    cases owned

theorem addConstants_eq_error_iff {constants : Option Constants} {error : Error} :
    draft.addConstants definition constants = .error error ↔
      ∃ group, constants = some group ∧
        draft.claim definition (.ofConstants group.stem) = .error error := by
  cases constants with
  | none => simp [addConstants]
  | some constants =>
      rw [addConstants, bind_eq_error_iff]
      simp

/-- Why a definition cannot be added to a draft, in the order in which it is checked. -/
theorem add_eq_error_iff {error : Error} :
    draft.add definition = .error error ↔
      definition.structs = .error error ∨
      ∃ structs, definition.structs = .ok structs ∧
        (FailsFirst (fun struct => draft.claim definition (.ofClass struct.name))
            structs error ∨
          (∀ struct ∈ structs, draft.owners.get? (.ofClass struct.name) = none) ∧
            (definition.constants = .error error ∨
              ∃ group, definition.constants = .ok (some group) ∧
                draft.claim definition (.ofConstants group.stem) = .error error)) := by
  rw [add, bind_eq_error_iff]
  apply or_congr_right
  apply exists_congr
  intro structs
  apply and_congr_right
  intro made
  have distinct := definition.nodup_names_structs made
  rw [bind_eq_error_iff, addStructs_eq_error_iff distinct]
  apply or_congr_right
  rw [← succeeds_addStructs_iff distinct]
  -- the names of the structs are not names of constants
  have unchanged : ∀ between, structs.foldlM (addStruct definition) draft = .ok between →
      ∀ stem, (between.claim definition (.ofConstants stem) = .error error ↔
        draft.claim definition (.ofConstants stem) = .error error) := by
    intro between added stem
    rw [claim_eq_error_iff, claim_eq_error_iff, (gives_of_addStructs added).get?_owners,
      if_neg (by simp [classNames])]
  constructor
  · rintro ⟨between, added, later⟩
    refine ⟨⟨between, added⟩, ?_⟩
    rcases bind_eq_error_iff.mp later with unmade | ⟨constants, found, refused⟩
    · exact .inl unmade
    · obtain ⟨group, rfl, claimed⟩ := addConstants_eq_error_iff.mp refused
      exact .inr ⟨group, found, (unchanged between added group.stem).mp claimed⟩
  · rintro ⟨⟨between, added⟩, later⟩
    refine ⟨between, added, bind_eq_error_iff.mpr ?_⟩
    rcases later with unmade | ⟨group, found, claimed⟩
    · exact .inl unmade
    · exact .inr ⟨some group, found, addConstants_eq_error_iff.mpr
        ⟨group, rfl, (unchanged between added group.stem).mpr claimed⟩⟩

end Draft

end Module

end LexiconCompiler
