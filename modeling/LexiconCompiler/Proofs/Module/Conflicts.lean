import LexiconCompiler.Proofs.Module.Ownership

/-!
# Conflicts between definitions

A module is generated exactly if each of its definitions can be generated by itself and no
two of them declare the same name (`succeeds_ofDefinitions_iff`). Otherwise the first
definition that stands in the way gives the error (`ofDefinitions_eq_error_iff`).
-/

namespace LexiconCompiler

open Traversal

namespace Definition

/-- The structs of a definition, none if they cannot be made. -/
def madeStructs (definition : Definition) : List Struct :=
  match definition.structs with
  | .ok structs => structs
  | .error _ => []

/-- The group of constants of a definition, if it has one that can be made. -/
def madeConstants (definition : Definition) : List Constants :=
  match definition.constants with
  | .ok constants => constants.toList
  | .error _ => []

theorem madeStructs_of_ok {definition : Definition} {structs : List Struct}
    (made : definition.structs = .ok structs) : definition.madeStructs = structs := by
  rw [madeStructs, made]

theorem madeConstants_of_ok {definition : Definition} {constants : Option Constants}
    (made : definition.constants = .ok constants) :
    definition.madeConstants = constants.toList := by
  rw [madeConstants, made]

theorem declares_ofClass_iff {definition : Definition} {name : String} :
    definition.Declares (.ofClass name) ↔ name ∈ definition.madeStructs.map Struct.name := by
  constructor
  · intro declares
    cases declares with
    | struct made member =>
        rw [madeStructs_of_ok made]
        exact List.mem_map.mpr ⟨_, member, rfl⟩
  · intro member
    obtain ⟨struct, inside, rfl⟩ := List.mem_map.mp member
    cases made : definition.structs with
    | error error => simp [madeStructs, made] at inside
    | ok structs =>
        rw [madeStructs_of_ok made] at inside
        exact .struct made inside

theorem declares_ofConstants_iff {definition : Definition} {stem : String} :
    definition.Declares (.ofConstants stem) ↔
      stem ∈ definition.madeConstants.map Constants.stem := by
  constructor
  · intro declares
    cases declares with
    | constants made =>
        rw [madeConstants_of_ok made]
        simp
  · intro member
    obtain ⟨group, inside, rfl⟩ := List.mem_map.mp member
    cases made : definition.constants with
    | error error => simp [madeConstants, made] at inside
    | ok constants =>
        rw [madeConstants_of_ok made, Option.mem_toList] at inside
        cases inside
        exact .constants made

theorem nodup_names_madeStructs (definition : Definition) :
    (definition.madeStructs.map Struct.name).Nodup := by
  cases made : definition.structs with
  | error error => simp [madeStructs, made]
  | ok structs =>
      rw [madeStructs_of_ok made]
      exact definition.nodup_names_structs made

theorem nodup_stems_madeConstants (definition : Definition) :
    (definition.madeConstants.map Constants.stem).Nodup := by
  rw [madeConstants]
  cases definition.constants with
  | error error => simp
  | ok constants => cases constants <;> simp

/-- Two definitions declare no name in common. -/
def Apart (first second : Definition) : Prop :=
  ∀ name, first.Declares name → ¬ second.Declares name

theorem apart_iff {first second : Definition} :
    first.Apart second ↔
      (first.madeStructs.map Struct.name).Disjoint (second.madeStructs.map Struct.name) ∧
      (first.madeConstants.map Constants.stem).Disjoint
        (second.madeConstants.map Constants.stem) := by
  constructor
  · intro apart
    constructor
    · intro name here there
      exact apart (.ofClass name) (declares_ofClass_iff.mpr here)
        (declares_ofClass_iff.mpr there)
    · intro stem here there
      exact apart (.ofConstants stem) (declares_ofConstants_iff.mpr here)
        (declares_ofConstants_iff.mpr there)
  · rintro ⟨classes, stems⟩ name here there
    cases name with
    | ofClass name =>
        exact classes (declares_ofClass_iff.mp here) (declares_ofClass_iff.mp there)
    | ofConstants stem =>
        exact stems (declares_ofConstants_iff.mp here) (declares_ofConstants_iff.mp there)

/-- Names that are declared are told apart by how they are shown: what is shown for
constants cannot be the name of a class. -/
theorem Declares.display_inj {first second : Definition} {name other : Name.Generated}
    (declares : first.Declares name) (again : second.Declares other)
    (same : name.display = other.display) : name = other := by
  have unlike : ∀ {definition : Definition} {structs : List Struct} {struct : Struct}
      {stem : String}, definition.structs = .ok structs → struct ∈ structs →
      struct.name ≠ stem ++ "_*" := by
    intro definition structs struct stem made member equal
    apply not_underscore_mem_name made member
    rw [equal, String.toList_append]
    exact List.mem_append_right _ (by decide)
  cases declares with
  | struct made member =>
      cases again with
      | struct _ _ => exact congrArg Name.Generated.ofClass same
      | constants _ => exact absurd same (unlike made member)
  | constants _ =>
      cases again with
      | struct made member => exact absurd same.symm (unlike made member)
      | constants _ =>
          exact congrArg Name.Generated.ofConstants ((String.append_left_inj _).mp same)

end Definition

namespace Module

/-! ## Rejections -/

/-- No definition of a list declares a name. -/
def Free (definitions : List Definition) (name : Name.Generated) : Prop :=
  ∀ definition ∈ definitions, ¬ definition.Declares name

/-- Why a definition cannot join those before it: it fails by itself, or it asks for a name
that one of them declares. Its structs come before its constants. -/
inductive Rejects (before : List Definition) (definition : Definition) : Error → Prop where
  | structs {error : Error} (unmade : definition.structs = .error error) :
      Rejects before definition error
  | className {first rest : List Struct} {struct : Struct} {owner : Definition}
      (made : definition.structs = .ok (first ++ struct :: rest))
      (free : ∀ earlier ∈ first, Free before (.ofClass earlier.name))
      (member : owner ∈ before) (owns : owner.Declares (.ofClass struct.name)) :
      Rejects before definition (taken definition (.ofClass struct.name) owner.id)
  | constants {structs : List Struct} {error : Error}
      (made : definition.structs = .ok structs)
      (free : ∀ struct ∈ structs, Free before (.ofClass struct.name))
      (unmade : definition.constants = .error error) : Rejects before definition error
  | stem {structs : List Struct} {constants : Constants} {owner : Definition}
      (made : definition.structs = .ok structs)
      (free : ∀ struct ∈ structs, Free before (.ofClass struct.name))
      (constantsMade : definition.constants = .ok (some constants))
      (member : owner ∈ before) (owns : owner.Declares (.ofConstants constants.stem)) :
      Rejects before definition (taken definition (.ofConstants constants.stem) owner.id)

namespace Draft

variable {before : List Definition} {draft : Draft} {definition : Definition}
  {name : Name.Generated} {error : Error}

theorem Owned.get?_eq_none_iff (owned : Owned before draft) :
    draft.owners.get? name = none ↔ Free before name := by
  constructor
  · intro free other member declares
    have found := (owned name other.id).mpr ⟨other, member, declares, rfl⟩
    rw [free] at found
    cases found
  · intro free
    cases found : draft.owners.get? name with
    | none => rfl
    | some owner =>
        obtain ⟨other, member, declares, _⟩ := (owned name owner).mp found
        exact absurd declares (free other member)

theorem Owned.claim_eq_error_iff (owned : Owned before draft) :
    draft.claim definition name = .error error ↔
      ∃ owner ∈ before, owner.Declares name ∧ error = taken definition name owner.id := by
  rw [Draft.claim_eq_error_iff]
  constructor
  · rintro ⟨owner, found, rfl⟩
    obtain ⟨other, member, declares, rfl⟩ := (owned name owner).mp found
    exact ⟨other, member, declares, rfl⟩
  · rintro ⟨other, member, declares, rfl⟩
    exact ⟨other.id, (owned name other.id).mpr ⟨other, member, declares, rfl⟩, rfl⟩

/-- A definition is refused with the error that the definitions before it give rise to. -/
theorem rejects_iff_of_owned (owned : Owned before draft) :
    draft.add definition = .error error ↔ Rejects before definition error := by
  rw [add_eq_error_iff]
  simp only [owned.get?_eq_none_iff, owned.claim_eq_error_iff]
  constructor
  · rintro (unmade | ⟨structs, made, claimed | ⟨free, unmade | ⟨group, found, claimed⟩⟩⟩)
    · exact .structs unmade
    · obtain ⟨first, struct, rest, rfl, passes, refused⟩ := claimed
      obtain ⟨owner, member, owns, rfl⟩ := owned.claim_eq_error_iff.mp refused
      refine .className made ?_ member owns
      intro earlier inside
      exact owned.get?_eq_none_iff.mp ((succeeds_claim_iff definition).mp (passes earlier inside))
    · exact .constants made free unmade
    · obtain ⟨owner, member, owns, rfl⟩ := claimed
      exact .stem made free found member owns
  · intro rejects
    cases rejects with
    | structs unmade => exact .inl unmade
    | @className first rest struct owner made free member owns =>
        refine .inr ⟨_, made, .inl ⟨first, struct, rest, rfl, ?_, ?_⟩⟩
        · intro earlier inside
          exact (succeeds_claim_iff definition).mpr
            (owned.get?_eq_none_iff.mpr (free earlier inside))
        · exact owned.claim_eq_error_iff.mpr ⟨owner, member, owns, rfl⟩
    | constants made free unmade => exact .inr ⟨_, made, .inr ⟨free, .inl unmade⟩⟩
    | stem made free found member owns =>
        exact .inr ⟨_, made, .inr ⟨free, .inr ⟨_, found, _, member, owns, rfl⟩⟩⟩

end Draft

/-- The first definition that cannot join those before it gives the error. -/
theorem ofDefinitions_eq_error_iff {sourceId : String} {definitions : List Definition}
    {error : Error} :
    ofDefinitions sourceId definitions = .error error ↔
      ∃ before definition after, definitions = before ++ definition :: after ∧
        Succeeds (ofDefinitions sourceId before) ∧ Rejects before definition error := by
  have drafted : ∀ before, Succeeds (ofDefinitions sourceId before) ↔
      ∃ draft, before.foldlM Draft.add .empty = .ok draft := by
    intro before
    rw [ofDefinitions, succeeds_bind_iff]
    simp only [succeeds_ok, and_true]
  rw [ofDefinitions, bind_eq_error_iff, foldlM_eq_error_iff]
  constructor
  · rintro (⟨before, definition, after, draft, split, made, refused⟩ | ⟨_, _, impossible⟩)
    · have owned := Draft.owned_of_addAll made
      exact ⟨before, definition, after, split, (drafted before).mpr ⟨draft, made⟩,
        (Draft.rejects_iff_of_owned owned).mp refused⟩
    · cases impossible
  · rintro ⟨before, definition, after, split, succeeds, rejects⟩
    obtain ⟨draft, made⟩ := (drafted before).mp succeeds
    have owned := Draft.owned_of_addAll made
    exact .inl ⟨before, definition, after, draft, split, made,
      (Draft.rejects_iff_of_owned owned).mpr rejects⟩

/-! ## Success -/

theorem flatten_eq_flatMap_madeStructs {definitions : List Definition}
    {structs : List (List Struct)} (made : definitions.mapM Definition.structs = .ok structs) :
    structs.flatten = definitions.flatMap Definition.madeStructs := by
  have related := mapM_eq_ok_iff.mp made
  clear made
  induction related with
  | nil => rfl
  | cons here there ih =>
      rw [List.flatten_cons, List.flatMap_cons, ih, Definition.madeStructs_of_ok here]

theorem reduceOption_eq_flatMap_madeConstants {definitions : List Definition}
    {constants : List (Option Constants)}
    (made : definitions.mapM Definition.constants = .ok constants) :
    constants.reduceOption = definitions.flatMap Definition.madeConstants := by
  have related := mapM_eq_ok_iff.mp made
  clear made
  induction related with
  | nil => rfl
  | @cons definition group _ _ here there ih =>
      rw [List.flatMap_cons, ← ih, Definition.madeConstants_of_ok here]
      cases group <;> rfl

/-- A module holds what its definitions are generated as, in their order. -/
theorem eq_of_ofDefinitions {sourceId : String} {definitions : List Definition}
    {generated : Module} (made : ofDefinitions sourceId definitions = .ok generated) :
    (∀ definition ∈ definitions,
      Succeeds definition.structs ∧ Succeeds definition.constants) ∧
    generated = {
      sourceId
      structs := definitions.flatMap Definition.madeStructs
      methods := definitions.flatMap Definition.madeConstants } := by
  obtain ⟨named, structs, constants, structsMade, constantsMade, holds⟩ :=
    holds_of_ofDefinitions made
  constructor
  · intro definition member
    exact ⟨succeeds_mapM_iff.mp ⟨_, structsMade⟩ definition member,
      succeeds_mapM_iff.mp ⟨_, constantsMade⟩ definition member⟩
  · rw [← flatten_eq_flatMap_madeStructs structsMade,
      ← reduceOption_eq_flatMap_madeConstants constantsMade, ← holds.structs_eq,
      ← holds.methods_eq, ← named]

theorem pairwise_apart_iff {definitions : List Definition} :
    definitions.Pairwise Definition.Apart ↔
      ((definitions.flatMap Definition.madeStructs).map Struct.name).Nodup ∧
      ((definitions.flatMap Definition.madeConstants).map Constants.stem).Nodup := by
  simp only [List.map_flatMap, List.nodup_flatMap, Definition.nodup_names_madeStructs,
    Definition.nodup_stems_madeConstants, implies_true, true_and]
  rw [← List.pairwise_and_iff]
  exact List.Pairwise.iff fun _ _ => Definition.apart_iff

/-- A module is generated exactly if each of its definitions can be generated by itself
and all class names and all stems differ. -/
theorem succeeds_ofDefinitions_iff {sourceId : String} {definitions : List Definition} :
    Succeeds (ofDefinitions sourceId definitions) ↔
      (∀ definition ∈ definitions,
        Succeeds definition.structs ∧ Succeeds definition.constants) ∧
      ((definitions.flatMap Definition.madeStructs).map Struct.name).Nodup ∧
      ((definitions.flatMap Definition.madeConstants).map Constants.stem).Nodup := by
  constructor
  · rintro ⟨generated, made⟩
    obtain ⟨alone, equal⟩ := eq_of_ofDefinitions made
    obtain ⟨_, _, _, _, _, holds⟩ := holds_of_ofDefinitions made
    have classes := holds.nodup_classNames
    have stems := holds.nodup_stems
    rw [equal] at classes stems
    exact ⟨alone, classes, stems⟩
  · rw [← pairwise_apart_iff]
    rintro ⟨alone, apart⟩
    by_contra refused
    obtain ⟨error, failed⟩ := not_succeeds_iff.mp refused
    obtain ⟨before, definition, after, rfl, _, rejects⟩ := ofDefinitions_eq_error_iff.mp failed
    have own := alone definition (by simp)
    have free : ∀ owner ∈ before, owner.Apart definition := by
      intro owner member
      exact (List.pairwise_append.mp apart).2.2 owner member definition List.mem_cons_self
    cases rejects with
    | structs unmade => exact not_succeeds_iff.mpr ⟨_, unmade⟩ own.1
    | className made _ member owns =>
        exact free _ member _ owns (.struct made (by simp))
    | constants _ _ unmade => exact not_succeeds_iff.mpr ⟨_, unmade⟩ own.2
    | stem _ _ made member owns => exact free _ member _ owns (.constants made)

theorem succeeds_ofDefinitions_perm {sourceId : String} {definitions others : List Definition}
    (perm : definitions.Perm others) :
    Succeeds (ofDefinitions sourceId definitions) ↔ Succeeds (ofDefinitions sourceId others) := by
  have structs := (perm.flatMap_right Definition.madeStructs).map Struct.name
  have constants := (perm.flatMap_right Definition.madeConstants).map Constants.stem
  rw [succeeds_ofDefinitions_iff, succeeds_ofDefinitions_iff, structs.nodup_iff,
    constants.nodup_iff]
  simp only [perm.mem_iff]

theorem succeeds_ofDefinitions_singleton {sourceId : String} {definition : Definition} :
    Succeeds (ofDefinitions sourceId [definition]) ↔
      Succeeds definition.structs ∧ Succeeds definition.constants := by
  rw [succeeds_ofDefinitions_iff]
  simp [Definition.nodup_names_madeStructs, Definition.nodup_stems_madeConstants]

end Module

end LexiconCompiler
