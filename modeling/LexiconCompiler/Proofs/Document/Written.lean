import LexiconCompiler.Proofs.Document.Envelope
import LexiconCompiler.Proofs.Json.Writing

/-!
# Documents that were written

A text that was written for an object is read as a document exactly if the object has the
members of one. The document then holds the values of the object as they were written, the
definitions in their order. Otherwise the text is rejected under the name to be blamed.
-/

namespace LexiconCompiler.Document

variable {depth : Nat} {source : Option String} {members : List (String × Json)}

/-- The members of an object are those of a document: a whole number as the version, an id
that is not empty, at least one definition, and a text if there is a description. -/
structure HasEnvelope (members : List (String × Json)) : Prop where
  version : ∃ version, Table.valueIn "lexicon" members = some (.int version)
  id : ∃ id, Table.valueIn "id" members = some (.str id) ∧ id ≠ ""
  definitions : ∃ first others, Table.valueIn "defs" members = some (.obj (first :: others))
  description : ∀ raw, Table.valueIn "description" members = some raw →
    raw = .null ∨ ∃ text, raw = .str text

/-- A member is absent, null or a text exactly if it gives a description or none. -/
theorem exists_description_iff {key : String} :
    (∃ description : Option String, Site.present? members key = description.map .str) ↔
      ∀ raw, Table.valueIn key members = some raw → raw = .null ∨ ∃ text, raw = .str text := by
  rw [Site.present?]
  constructor
  · rintro ⟨description, given⟩ raw found
    rw [found] at given
    cases raw with
    | null => exact .inl rfl
    | str text => exact .inr ⟨text, rfl⟩
    | _ => cases description <;> cases given
  · intro given
    cases found : Table.valueIn key members with
    | none => exact ⟨none, rfl⟩
    | some raw =>
        rcases given raw found with rfl | ⟨text, rfl⟩
        · exact ⟨none, rfl⟩
        · exact ⟨some text, rfl⟩

theorem exists_isEnvelope_iff :
    (∃ document, IsEnvelope members document) ↔ HasEnvelope members := by
  constructor
  · rintro ⟨document, envelope⟩
    obtain ⟨first, others, found, _⟩ := envelope.definitions
    exact ⟨⟨_, envelope.version⟩, ⟨_, envelope.id, envelope.named⟩, ⟨first, others, found⟩,
      exists_description_iff.mp ⟨_, envelope.description⟩⟩
  · rintro ⟨⟨version, versioned⟩, ⟨id, here, named⟩, ⟨first, others, found⟩, given⟩
    obtain ⟨description, described⟩ := exists_description_iff.mpr given
    exact ⟨⟨version, id, description, Table.ofList (first :: others)⟩, versioned, here, named,
      ⟨first, others, found, rfl⟩, described⟩

/-- A text that was written for an object is read as that object. -/
theorem parse_write (readable : (Json.obj members).Readable depth) :
    parse depth source (.text (Json.write (.obj members))) =
      match ofJson source (.obj members) with
      | .ok document => .ok document
      | .error error => .error (.rejected error) := by
  have characters : (Input.text (Json.write (.obj members))).characters =
      .ok (Json.write (.obj members)) := by
    rw [Json.write, List.cons_append]
    rfl
  have read : readJson depth source (Json.write (.obj members)) = .ok (.obj members) := by
    rw [readJson, Json.read_write readable]
  rw [parse, characters]
  dsimp only
  rw [read]
  rfl

/-- The definitions of an object that can be read back are the entries of their table. -/
theorem entries_definitions {document : Document}
    (readable : (Json.obj members).Readable depth)
    (envelope : IsEnvelope members document) :
    Table.valueIn "defs" members = some (.obj document.definitions.entries) := by
  obtain ⟨first, others, found, made⟩ := envelope.definitions
  cases readable with
  | obj distinct inside =>
      cases inside _ (Json.valueIn_mem found) with
      | obj distinct inside => rw [found, made, Table.entries_ofList distinct]

/-- A text that was written for an object is read as a document exactly if the object has the
members of one. The document holds the values of the object. Otherwise the text is rejected
under the name to be blamed. -/
theorem parse_written (source : Option String) {members : List (String × Json)}
    (readable : (Json.obj members).Readable depth) :
    ((∃ document, parse depth source (.text (Json.write (.obj members))) = .ok document) ↔
      HasEnvelope members) ∧
    (∀ document, parse depth source (.text (Json.write (.obj members))) = .ok document →
      Table.valueIn "lexicon" members = some (.int document.version) ∧
      Table.valueIn "id" members = some (.str document.id) ∧
      Table.valueIn "defs" members = some (.obj document.definitions.entries) ∧
      Site.present? members "description" = document.description.map .str) ∧
    (¬ HasEnvelope members → ∃ problem identifier,
      parse depth source (.text (Json.write (.obj members))) =
        .error (.rejected (DocumentProblem.error problem identifier)) ∧
      Blames source members identifier) := by
  have parsed : ∀ document, parse depth source (.text (Json.write (.obj members))) = .ok document ↔
      IsEnvelope members document := by
    intro document
    rw [← ofJson_eq_ok_iff source, parse_write readable]
    cases ofJson source (.obj members) <;> simp
  refine ⟨?_, ?_, ?_⟩
  · simp only [parsed, exists_isEnvelope_iff]
  · intro document succeeds
    have envelope := (parsed document).mp succeeds
    exact ⟨envelope.version, envelope.id, entries_definitions readable envelope,
      envelope.description⟩
  · intro lacking
    rw [parse_write readable]
    cases checked : ofJson source (.obj members) with
    | ok document =>
        have envelope := (ofJson_eq_ok_iff source).mp checked
        exact absurd (exists_isEnvelope_iff.mp ⟨document, envelope⟩) lacking
    | error error =>
        obtain ⟨problem, identifier, rfl, blames⟩ := blames_of_ofJson checked
        exact ⟨problem, identifier, rfl, blames⟩

/-- The members of a document, with one that documents do not have. -/
def tokenMembers : List (String × Json) :=
  [("lexicon", .int 1), ("note", .arr [.null, .str "\u00e9"]), ("id", .str "a.b"),
   ("defs", .obj [("main", .obj [("type", .str "token"), ("revision", .int (-3))])])]

/-- The same members with a description that is no text. -/
def misdescribedMembers : List (String × Json) :=
  ("description", .int 7) :: tokenMembers

theorem readable_members : (Json.obj tokenMembers).Readable 3 ∧
    (Json.obj misdescribedMembers).Readable 3 := by
  have readable : ∀ depth, (Json.obj tokenMembers).Readable (depth + 3) ∧
      (Json.obj misdescribedMembers).Readable (depth + 3) := by
    intro depth
    simp [misdescribedMembers, tokenMembers, Nat.toDigits_of_lt_base, Json.Refusal.digitLimit]
  exact readable 0

theorem hasEnvelope_tokenMembers : HasEnvelope tokenMembers where
  version := ⟨1, rfl⟩
  id := ⟨"a.b", rfl, by decide⟩
  definitions := ⟨_, _, rfl⟩
  description := by rintro raw ⟨⟩

theorem acceptsId_misdescribedMembers : AcceptsId misdescribedMembers "a.b" where
  version := ⟨1, rfl⟩
  here := rfl
  named := by decide
  definitions := ⟨_, rfl⟩

/-- The first members are read as a document with their definitions. The others are rejected,
under the id where no source is given. -/
theorem parse_written_tokenMembers :
    (∃ document, parse 3 none (.text (Json.write (.obj tokenMembers))) = .ok document ∧
      document.definitions.entries =
        [("main", .obj [("type", .str "token"), ("revision", .int (-3))])]) ∧
    ∃ problem, parse 3 (some "") (.text (Json.write (.obj misdescribedMembers))) =
      .error (.rejected (DocumentProblem.error problem (some "a.b"))) := by
  obtain ⟨readable, misdescribed⟩ := readable_members
  constructor
  · obtain ⟨succeeds, holds, _⟩ := parse_written none readable
    obtain ⟨document, parsed⟩ := succeeds.mpr hasEnvelope_tokenMembers
    refine ⟨document, parsed, ?_⟩
    have same := (holds document parsed).2.2.1
    exact (Json.obj.inj (Option.some.inj same)).symm
  · obtain ⟨_, _, fails⟩ := parse_written (some "") misdescribed
    have lacking : ¬ HasEnvelope misdescribedMembers := by
      intro envelope
      rcases envelope.description (.int 7) rfl with impossible | ⟨text, impossible⟩ <;>
        cases impossible
    obtain ⟨problem, identifier, failed, blames⟩ := fails lacking
    cases blames with
    | source refused => exact absurd acceptsId_misdescribedMembers (refused _)
    | document accepted =>
        cases acceptsId_misdescribedMembers.unique accepted
        exact ⟨problem, failed⟩

end LexiconCompiler.Document
