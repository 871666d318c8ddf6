import LexiconCompiler.Document
import LexiconCompiler.Proofs.Schema.Members

/-!
# Values that are read

No object of a value that is read gives a key twice, however often its text does. So the
raw definitions of a document are unambiguous.
-/

namespace LexiconCompiler

open Traversal

namespace Table

variable {κ α : Type} [DecidableEq κ]

theorem eq_or_mem_of_mem_assign {key : κ} {value : α} {entries : List (κ × α)} {entry : κ × α}
    (member : entry ∈ assign key value entries) : entry = (key, value) ∨ entry ∈ entries := by
  induction entries with
  | nil =>
      rw [assign, List.mem_singleton] at member
      exact .inl member
  | cons first rest ih =>
      rw [assign] at member
      split at member
      · rcases List.mem_cons.mp member with equal | later
        · exact .inl equal
        · exact .inr (List.mem_cons_of_mem _ later)
      · rcases List.mem_cons.mp member with equal | later
        · exact .inr (List.mem_cons.mpr (.inl equal))
        · rcases ih later with equal | inside
          · exact .inl equal
          · exact .inr (List.mem_cons_of_mem _ inside)

/-- A table made of a list holds entries of the list only. -/
theorem mem_of_mem_ofList {entries : List (κ × α)} {entry : κ × α}
    (member : entry ∈ (ofList entries).entries) : entry ∈ entries := by
  have general : ∀ (later : List (κ × α)) (table : Table κ α),
      entry ∈ (later.foldl (fun table entry => table.insert entry.1 entry.2) table).entries →
        entry ∈ table.entries ∨ entry ∈ later := by
    intro later
    induction later with
    | nil =>
        intro table inside
        exact .inl inside
    | cons first rest ih =>
        intro table inside
        rcases ih _ inside with inserted | later
        · rcases eq_or_mem_of_mem_assign inserted with equal | old
          · exact .inr (List.mem_cons.mpr (.inl equal))
          · exact .inl old
        · exact .inr (List.mem_cons_of_mem _ later)
  rcases general entries empty member with impossible | inside
  · cases impossible
  · exact inside

end Table

namespace Json

/-- What is read is unambiguous. -/
def ReadsClear (read : List Char → Except Refusal (Parsed Json)) : Prop :=
  ∀ text value rest, read text = .ok (value, rest) → value.Unambiguous

theorem unambiguous_of_mem_valueWords {word : String} {value : Json}
    (member : (word, value) ∈ valueWords) : value.Unambiguous := by
  simp only [valueWords, List.mem_cons, Prod.mk.injEq, List.not_mem_nil, or_false] at member
  rcases member with ⟨_, rfl⟩ | ⟨_, rfl⟩ | ⟨_, rfl⟩ | ⟨_, rfl⟩ | ⟨_, rfl⟩ | ⟨_, rfl⟩
  · exact .null
  · exact .bool true
  · exact .bool false
  · exact .real _
  · exact .real _
  · exact .real _

theorem unambiguous_of_numeralValue {numeral : Numeral} {value : Json}
    (read : numeralValue numeral = .ok value) : value.Unambiguous := by
  rw [numeralValue] at read
  split at read
  · split at read
    · cases read
    · cases read
      exact .int _
  · cases read
    exact .real _

theorem readsClear_readScalar : ReadsClear readScalar := by
  intro text value rest read
  rw [readScalar] at read
  split at read
  · rename_i found word
    cases read
    obtain ⟨⟨word, meaning⟩, member, matched⟩ := List.exists_of_findSome?_eq_some word
    dsimp only at matched
    split at matched
    · cases matched
      exact unambiguous_of_mem_valueWords member
    · cases matched
  · split at read
    · cases read
    · obtain ⟨meaning, valued, equal⟩ := bind_eq_ok_iff.mp read
      cases equal
      exact unambiguous_of_numeralValue valued

variable {nested : List Char → Except Refusal (Parsed Json)}

theorem unambiguous_of_readItems (clear : ReadsClear nested) {budget : Nat} {text : List Char}
    {items : List Json} {rest : List Char}
    (read : readItems nested budget text = .ok (items, rest)) :
    ∀ item ∈ items, item.Unambiguous := by
  induction budget generalizing text items with
  | zero => cases read
  | succ budget ih =>
      obtain ⟨⟨first, between⟩, firstRead, read⟩ := bind_eq_ok_iff.mp read
      have firstClear := clear _ _ _ firstRead
      dsimp only at read
      split at read
      · cases read
        intro item member
        rw [List.mem_singleton.mp member]
        exact firstClear
      · obtain ⟨⟨others, after⟩, othersRead, equal⟩ := bind_eq_ok_iff.mp read
        cases equal
        intro item member
        rcases List.mem_cons.mp member with rfl | later
        · exact firstClear
        · exact ih othersRead item later
      · cases read

theorem unambiguous_of_readMembers (clear : ReadsClear nested) {budget : Nat}
    {text : List Char} {members : List (String × Json)} {rest : List Char}
    (read : readMembers nested budget text = .ok (members, rest)) :
    ∀ entry ∈ members, entry.2.Unambiguous := by
  induction budget generalizing text members with
  | zero => cases read
  | succ budget ih =>
      obtain ⟨⟨key, between⟩, _, read⟩ := bind_eq_ok_iff.mp read
      obtain ⟨⟨first, after⟩, firstRead, read⟩ := bind_eq_ok_iff.mp read
      have firstClear := clear _ _ _ firstRead
      dsimp only at read
      split at read
      · cases read
        intro entry member
        rw [List.mem_singleton.mp member]
        exact firstClear
      · obtain ⟨⟨others, _⟩, othersRead, equal⟩ := bind_eq_ok_iff.mp read
        cases equal
        intro entry member
        rcases List.mem_cons.mp member with rfl | later
        · exact firstClear
        · exact ih othersRead entry later
      · cases read

theorem readsClear_readArray (clear : ReadsClear nested) : ReadsClear (readArray nested) := by
  intro text value rest read
  rw [readArray] at read
  split at read
  · cases read
    exact .arr fun item member => absurd member List.not_mem_nil
  · obtain ⟨⟨items, after⟩, itemsRead, equal⟩ := bind_eq_ok_iff.mp read
    cases equal
    exact .arr (unambiguous_of_readItems clear itemsRead)

/-- An object that is read is a table, so its keys are distinct. -/
theorem readsClear_readObject (clear : ReadsClear nested) : ReadsClear (readObject nested) := by
  intro text value rest read
  rw [readObject] at read
  split at read
  · cases read
    exact .obj List.nodup_nil fun entry member => absurd member List.not_mem_nil
  · obtain ⟨⟨members, after⟩, membersRead, equal⟩ := bind_eq_ok_iff.mp read
    cases equal
    refine .obj (Table.ofList members).distinct ?_
    intro entry member
    exact unambiguous_of_readMembers clear membersRead entry (Table.mem_of_mem_ofList member)

theorem readsClear_readWith {nested : Option (List Char → Except Refusal (Parsed Json))}
    (clear : ∀ read ∈ nested, ReadsClear read) : ReadsClear (readWith nested) := by
  intro text value rest read
  simp only [readWith] at read
  split at read
  · obtain ⟨⟨string, after⟩, _, equal⟩ := bind_eq_ok_iff.mp read
    cases equal
    exact .str _
  · split at read
    · exact readsClear_readObject (clear _ rfl) _ _ _ read
    · cases read
  · split at read
    · exact readsClear_readArray (clear _ rfl) _ _ _ read
    · cases read
  · exact readsClear_readScalar _ _ _ read

theorem readsClear_readValue (depth : Nat) : ReadsClear (readValue depth) := by
  induction depth with
  | zero => exact readsClear_readWith fun read member => nomatch member
  | succ depth ih =>
      apply readsClear_readWith
      intro read member
      cases member
      exact ih

/-- A text is read as a value that is unambiguous. -/
theorem unambiguous_of_read {depth : Nat} {text : List Char} {value : Json}
    (read : Json.read depth text = .ok value) : value.Unambiguous := by
  obtain ⟨⟨found, rest⟩, foundRead, ended⟩ := bind_eq_ok_iff.mp read
  dsimp only at ended
  split at ended
  · cases ended
    exact readsClear_readValue _ _ _ _ foundRead
  · cases ended

end Json

theorem unambiguous_of_readJson {depth : Nat} {source : Option String}
    {characters : List Char} {value : Json}
    (read : readJson depth source characters = .ok value) : value.Unambiguous := by
  rw [readJson] at read
  split at read
  · rename_i found
    cases read
    exact Json.unambiguous_of_read found
  all_goals cases read

namespace Document

/-- The definitions of a document are those under its key. -/
theorem mem_of_ofJson {source : Option String} {raw : Json} {document : Document}
    (checked : ofJson source raw = .ok document) {entry : String × Json}
    (member : entry ∈ document.definitions.entries) :
    ∃ definitions, raw.member? "defs" = some (.obj definitions) ∧ entry ∈ definitions := by
  rw [ofJson] at checked
  split at checked
  · cases checked
  · rename_i members object
    obtain ⟨version, _, checked⟩ := bind_eq_ok_iff.mp checked
    obtain ⟨id, _, checked⟩ := bind_eq_ok_iff.mp checked
    obtain ⟨definitions, found, checked⟩ := bind_eq_ok_iff.mp checked
    split at checked
    · cases checked
    · cases checked
    · obtain ⟨table, made, checked⟩ := bind_eq_ok_iff.mp checked
      obtain ⟨description, _, equal⟩ := bind_eq_ok_iff.mp checked
      cases equal
      rw [field] at found
      split at found
      · rename_i here
        cases found
        rw [definitionsOf] at made
        split at made
        · rename_i first others shape
          cases made
          refine ⟨first :: others, ?_, Table.mem_of_mem_ofList member⟩
          rw [Json.members?_eq_some_iff.mp object, Json.member?_obj, here,
            Json.members?_eq_some_iff.mp shape]
        · cases made
      · cases found

/-- The raw definitions of a document that is parsed are unambiguous. -/
theorem unambiguous_of_parse {depth : Nat} {source : Option String} {input : Input}
    {document : Document} (parsed : parse depth source input = .ok document)
    {entry : String × Json}
    (member : entry ∈ document.definitions.entries) : entry.2.Unambiguous := by
  rw [parse] at parsed
  split at parsed
  · cases parsed
  · obtain ⟨raw, read, checked⟩ := bind_eq_ok_iff.mp parsed
    split at checked
    · rename_i envelope
      cases checked
      obtain ⟨definitions, found, inside⟩ := mem_of_ofJson envelope member
      cases (unambiguous_of_readJson read).member found with
      | obj distinct clear => exact clear entry inside
    · cases checked

end Document

end LexiconCompiler
