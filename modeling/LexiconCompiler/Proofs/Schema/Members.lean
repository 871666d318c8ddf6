import LexiconCompiler.Schema.Decoding
import LexiconCompiler.Proofs.Traversal

/-!
# Members of raw values

What a raw value says under a key, seen without decoding it, and what the decoding of a
mandatory or an optional member finds there.
-/

namespace LexiconCompiler

open Traversal

namespace Json

/-- The value of a member, if the value is an object that has it. -/
def member? (raw : Json) (key : String) : Option Json :=
  raw.members?.bind (Table.valueIn key)

/-- The value of a member that is neither absent nor null. -/
def present? (raw : Json) (key : String) : Option Json :=
  raw.members?.bind fun members => Site.present? members key

/-- The items of the list that a member holds, none if it is absent or null. -/
def itemsAt (raw : Json) (key : String) : List Json :=
  ((raw.present? key).bind items?).getD []

/-- The tag of a raw value. -/
def tag? (raw : Json) : Option String :=
  (raw.member? "type").bind text?

/-- No object inside a value gives a key twice. -/
inductive Unambiguous : Json → Prop where
  | null : Unambiguous .null
  | bool (value : Bool) : Unambiguous (.bool value)
  | int (value : Int) : Unambiguous (.int value)
  | real (spelling : String) : Unambiguous (.real spelling)
  | str (value : String) : Unambiguous (.str value)
  | arr {items : List Json} (inside : ∀ item ∈ items, Unambiguous item) :
      Unambiguous (.arr items)
  | obj {members : List (String × Json)} (distinct : (members.map Prod.fst).Nodup)
      (inside : ∀ entry ∈ members, Unambiguous entry.2) : Unambiguous (.obj members)

@[simp] theorem member?_obj (members : List (String × Json)) (key : String) :
    (Json.obj members).member? key = Table.valueIn key members := rfl

@[simp] theorem present?_obj (members : List (String × Json)) (key : String) :
    (Json.obj members).present? key = Site.present? members key := rfl

theorem members?_eq_some_iff {raw : Json} {members : List (String × Json)} :
    raw.members? = some members ↔ raw = .obj members := by
  cases raw <;> simp [members?]

theorem text?_eq_some_iff {raw : Json} {text : String} :
    raw.text? = some text ↔ raw = .str text := by
  cases raw <;> simp [text?]

theorem valueIn_mem {members : List (String × Json)} {key : String} {value : Json}
    (found : Table.valueIn key members = some value) : (key, value) ∈ members := by
  induction members with
  | nil => cases found
  | cons entry rest ih =>
      rw [Table.valueIn] at found
      split at found
      · rename_i same
        cases found
        rw [← same]
        exact List.mem_cons_self
      · exact List.mem_cons_of_mem _ (ih found)

theorem member?_of_present? {raw value : Json} {key : String}
    (found : raw.present? key = some value) : raw.member? key = some value := by
  rw [present?] at found
  rw [member?]
  cases split : raw.members? with
  | none => simp [split] at found
  | some members =>
      rw [split, Option.bind_some] at found
      rw [Option.bind_some]
      rw [Site.present?] at found
      split at found
      · cases found
      · cases found
      · rename_i here
        rw [here, found]

@[simp] theorem unambiguous_str (value : String) : (Json.str value).Unambiguous := .str value

@[simp] theorem unambiguous_null : Json.null.Unambiguous := .null

@[simp] theorem unambiguous_arr_iff {items : List Json} :
    (Json.arr items).Unambiguous ↔ ∀ item ∈ items, item.Unambiguous := by
  constructor
  · intro clear
    cases clear with
    | arr inside => exact inside
  · exact .arr

@[simp] theorem unambiguous_obj_iff {members : List (String × Json)} :
    (Json.obj members).Unambiguous ↔
      (members.map Prod.fst).Nodup ∧ ∀ entry ∈ members, entry.2.Unambiguous := by
  constructor
  · intro clear
    cases clear with
    | obj distinct inside => exact ⟨distinct, inside⟩
  · intro ⟨distinct, inside⟩
    exact .obj distinct inside

/-- What an unambiguous value holds under a key is unambiguous. -/
theorem Unambiguous.member {raw value : Json} {key : String} (clear : raw.Unambiguous)
    (found : raw.member? key = some value) : value.Unambiguous := by
  cases clear with
  | obj distinct inside => exact inside _ (valueIn_mem found)
  | _ => cases found

end Json

namespace Site

theorem shaped_eq_ok_iff {α : Type} {site : Site} {key : String} {shape : Shape α}
    {value : Json} {result : α} :
    site.shaped key shape value = .ok result ↔ shape.value? value = some result := by
  rw [shaped]
  cases shape.value? value with
  | none =>
      constructor
      · intro equal
        cases equal
      · intro equal
        cases equal
  | some found =>
      constructor
      · intro equal
        cases equal
        rfl
      · intro equal
        cases equal
        rfl

/-- A mandatory member is there and has its shape. -/
theorem required_eq_ok_iff {α : Type} {site : Site} {members : List (String × Json)}
    {key : String} {shape : Shape α} {result : α} :
    site.required members key shape = .ok result ↔
      ∃ value, Table.valueIn key members = some value ∧ shape.value? value = some result := by
  rw [required]
  cases Table.valueIn key members with
  | none =>
      constructor
      · intro equal
        cases equal
      · intro ⟨value, impossible, _⟩
        cases impossible
  | some value =>
      rw [shaped_eq_ok_iff]
      simp

/-- An optional member is absent or null, or has its shape. -/
theorem optional_eq_ok_iff {α : Type} {site : Site} {members : List (String × Json)}
    {key : String} {shape : Shape α} {result : Option α} :
    site.optional members key shape = .ok result ↔
      Option.Rel (fun value found => shape.value? value = some found)
        (present? members key) result := by
  rw [optional]
  cases present? members key with
  | none =>
      constructor
      · intro equal
        cases equal
        exact .none
      · intro related
        cases related
        rfl
  | some value =>
      rw [bind_eq_ok_iff]
      simp only [shaped_eq_ok_iff]
      constructor
      · intro ⟨found, shaped, equal⟩
        cases equal
        exact .some shaped
      · intro related
        cases related with
        | some shaped => exact ⟨_, shaped, rfl⟩

end Site

/-- A part that may be left out is decoded if it is there. -/
theorem decodePart_eq_ok_iff {α : Type} {decode : Json → Except Error α} {raw : Option Json}
    {part : Option α} :
    decodePart decode raw = .ok part ↔
      Option.Rel (fun raw part => decode raw = .ok part) raw part := by
  cases raw with
  | none =>
      constructor
      · intro equal
        cases equal
        exact .none
      · intro related
        cases related
        rfl
  | some raw =>
      rw [decodePart]
      rw [bind_eq_ok_iff]
      constructor
      · intro ⟨found, decoded, equal⟩
        cases equal
        exact .some decoded
      · intro related
        cases related with
        | some decoded => exact ⟨_, decoded, rfl⟩

theorem taggedMembers_eq_ok_iff {identifier tag : String} {raw : Json}
    {members : List (String × Json)} :
    taggedMembers identifier raw = .ok (tag, members) ↔
      raw = .obj members ∧ raw.tag? = some tag := by
  rw [taggedMembers]
  cases raw with
  | obj own =>
      simp only [Json.members?, Json.tag?, Json.member?_obj, Json.obj.injEq]
      cases (Table.valueIn "type" own).bind Json.text? with
      | none =>
          constructor
          · intro equal
            cases equal
          · intro ⟨_, impossible⟩
            cases impossible
      | some found =>
          constructor
          · intro equal
            cases equal
            exact ⟨rfl, rfl⟩
          · intro ⟨same, equal⟩
            cases same
            cases equal
            rfl
  | _ =>
      constructor
      · intro equal
        cases equal
      · intro ⟨impossible, _⟩
        cases impossible

end LexiconCompiler
