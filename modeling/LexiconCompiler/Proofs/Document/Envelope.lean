import LexiconCompiler.Document
import LexiconCompiler.Proofs.Schema.Members

/-!
# Envelopes of documents

The members of an object make a document exactly if they are an envelope: a version, an id
and definitions, and perhaps a description. Otherwise an error tells what is missing. It
names the source of the document, and once the id is accepted also the document itself.
-/

namespace LexiconCompiler.Document

open Traversal

variable {source identifier : Option String} {members : List (String × Json)} {raw : Json}
  {document : Document} {error : Error} {key id named : String}

/-- The members up to the id, and the presence of definitions, are as they have to be. -/
structure AcceptsId (members : List (String × Json)) (id : String) : Prop where
  version : ∃ version, Table.valueIn "lexicon" members = some (.int version)
  here : Table.valueIn "id" members = some (.str id)
  named : id ≠ ""
  definitions : ∃ raw, Table.valueIn "defs" members = some raw

/-- The members are the envelope of a document. -/
structure IsEnvelope (members : List (String × Json)) (document : Document) : Prop where
  version : Table.valueIn "lexicon" members = some (.int document.version)
  id : Table.valueIn "id" members = some (.str document.id)
  named : document.id ≠ ""
  definitions : ∃ first others,
    Table.valueIn "defs" members = some (.obj (first :: others)) ∧
      document.definitions = Table.ofList (first :: others)
  description : Site.present? members "description" = document.description.map .str

/-- Whom an error about an envelope names: the source, or the document where no source is
given and the id is accepted. -/
inductive Blames (source : Option String) (members : List (String × Json)) :
    Option String → Prop where
  | source (refused : ∀ id, ¬ AcceptsId members id) : Blames source members source
  | document {id : String} (accepted : AcceptsId members id) :
      Blames source members (some ((source.filter (· ≠ "")).getD id))

/-! ## Members -/

theorem field_eq_ok_iff : field source members key = .ok raw ↔
    Table.valueIn key members = some raw := by
  rw [field]
  split
  · rename_i value found
    rw [found]
    constructor
    · rintro ⟨⟩
      rfl
    · rintro ⟨⟩
      rfl
  · rename_i absent
    rw [absent]
    constructor
    · rintro ⟨⟩
    · rintro ⟨⟩

theorem field_eq_error_iff : field source members key = .error error ↔
    Table.valueIn key members = none ∧
      error = DocumentProblem.error (.missingField key) source := by
  rw [field]
  split
  · rename_i value found
    rw [found]
    constructor
    · rintro ⟨⟩
    · rintro ⟨⟨⟩, _⟩
  · rename_i absent
    rw [absent]
    constructor
    · rintro ⟨⟩
      exact ⟨rfl, rfl⟩
    · rintro ⟨_, rfl⟩
      rfl

theorem definitionsOf_eq_ok_iff {definitions : Table String Json} :
    definitionsOf named raw = .ok definitions ↔
      ∃ first others, raw = .obj (first :: others) ∧
        definitions = Table.ofList (first :: others) := by
  rw [definitionsOf]
  constructor
  · intro made
    split at made
    · rename_i first others object
      cases made
      exact ⟨first, others, Json.members?_eq_some_iff.mp object, rfl⟩
    · cases made
  · rintro ⟨first, others, rfl, rfl⟩
    rfl

theorem definitionsOf_eq_error (failed : definitionsOf named raw = .error error) :
    error = DocumentProblem.error .definitionsNotObject (some named) := by
  rw [definitionsOf] at failed
  split at failed
  · cases failed
  · cases failed
    rfl

theorem descriptionOf_eq_ok_iff {given : Option Json} {description : Option String} :
    descriptionOf named given = .ok description ↔ given = description.map .str := by
  cases given with
  | none => cases description <;> simp [descriptionOf]
  | some raw => cases raw <;> cases description <;> simp [descriptionOf, Json.text?]

theorem descriptionOf_eq_error {given : Option Json}
    (failed : descriptionOf named given = .error error) :
    error = DocumentProblem.error .descriptionNotText (some named) := by
  unfold descriptionOf at failed
  split at failed
  · cases failed
  · split at failed
    · cases failed
    · cases failed
      rfl

theorem integer?_eq_some_iff {value : Int} : raw.integer? = some value ↔ raw = .int value := by
  cases raw <;> simp [Json.integer?]

theorem filter_text?_eq_some_iff :
    raw.text?.filter (· ≠ "") = some id ↔ raw = .str id ∧ id ≠ "" := by
  rw [Option.filter_eq_some_iff, Json.text?_eq_some_iff, decide_eq_true_iff]

/-! ## Envelopes -/

theorem AcceptsId.unique {other : String} (accepted : AcceptsId members id)
    (again : AcceptsId members other) : other = id := by
  cases again.here.symm.trans accepted.here
  rfl

theorem IsEnvelope.acceptsId (envelope : IsEnvelope members document) :
    AcceptsId members document.id where
  version := ⟨_, envelope.version⟩
  here := envelope.id
  named := envelope.named
  definitions :=
    have ⟨_, _, found, _⟩ := envelope.definitions
    ⟨_, found⟩

/-- Once the id is accepted, the definitions and the description are left to be checked. -/
theorem ofJson_of_acceptsId (accepted : AcceptsId members id) :
    ∃ version raw, Table.valueIn "lexicon" members = some (.int version) ∧
      Table.valueIn "defs" members = some raw ∧
      ofJson source (.obj members) = (do
        let definitions ← definitionsOf ((source.filter (· ≠ "")).getD id) raw
        let description ← descriptionOf ((source.filter (· ≠ "")).getD id)
          (Site.present? members "description")
        .ok { version, id, description, definitions }) := by
  obtain ⟨version, versioned⟩ := accepted.version
  obtain ⟨raw, defined⟩ := accepted.definitions
  refine ⟨version, raw, versioned, defined, ?_⟩
  have text : (Json.str id).text?.filter (· ≠ "") = some id :=
    filter_text?_eq_some_iff.mpr ⟨rfl, accepted.named⟩
  simp only [ofJson, Json.members?, field_eq_ok_iff.mpr versioned,
    field_eq_ok_iff.mpr accepted.here, field_eq_ok_iff.mpr defined, bind, Except.bind,
    Json.integer?, text]

/-- Before the id is accepted, errors name the source. -/
theorem ofJson_of_not_acceptsId (refused : ∀ id, ¬ AcceptsId members id) :
    ∃ problem, ofJson source (.obj members) = .error (DocumentProblem.error problem source) := by
  simp only [ofJson, Json.members?]
  cases versioned : field source members "lexicon" with
  | error error => exact ⟨_, congrArg Except.error (field_eq_error_iff.mp versioned).2⟩
  | ok version =>
      cases here : field source members "id" with
      | error error => exact ⟨_, congrArg Except.error (field_eq_error_iff.mp here).2⟩
      | ok rawId =>
          cases defined : field source members "defs" with
          | error error => exact ⟨_, congrArg Except.error (field_eq_error_iff.mp defined).2⟩
          | ok raw =>
              simp only [bind, Except.bind]
              split
              · exact ⟨_, rfl⟩
              · exact ⟨_, rfl⟩
              · rename_i number id integer text
                obtain ⟨rfl, named⟩ := filter_text?_eq_some_iff.mp text
                obtain rfl := integer?_eq_some_iff.mp integer
                exact absurd ⟨⟨_, field_eq_ok_iff.mp versioned⟩, field_eq_ok_iff.mp here, named,
                  ⟨_, field_eq_ok_iff.mp defined⟩⟩ (refused id)

/-- An object is the document whose envelope its members are. -/
theorem ofJson_eq_ok_iff (source : Option String) :
    ofJson source (.obj members) = .ok document ↔ IsEnvelope members document := by
  constructor
  · intro checked
    by_cases accepts : ∃ id, AcceptsId members id
    · obtain ⟨id, accepted⟩ := accepts
      obtain ⟨version, raw, versioned, defined, same⟩ := ofJson_of_acceptsId accepted
      rw [same] at checked
      obtain ⟨definitions, made, checked⟩ := bind_eq_ok_iff.mp checked
      obtain ⟨description, described, equal⟩ := bind_eq_ok_iff.mp checked
      cases equal
      obtain ⟨first, others, rfl, rfl⟩ := definitionsOf_eq_ok_iff.mp made
      exact ⟨versioned, accepted.here, accepted.named, ⟨first, others, defined, rfl⟩,
        descriptionOf_eq_ok_iff.mp described⟩
    · push Not at accepts
      obtain ⟨problem, failed⟩ := ofJson_of_not_acceptsId accepts
      cases checked.symm.trans failed
  · intro envelope
    obtain ⟨version, raw, versioned, defined, same⟩ := ofJson_of_acceptsId envelope.acceptsId
    obtain ⟨first, others, found, made⟩ := envelope.definitions
    cases versioned.symm.trans envelope.version
    cases defined.symm.trans found
    rw [same, definitionsOf_eq_ok_iff.mpr ⟨first, others, rfl, made⟩,
      descriptionOf_eq_ok_iff.mpr envelope.description]
    rfl

/-- What is wrong with an object is reported as an error of the document, under the name that
is to be blamed. -/
theorem blames_of_ofJson (failed : ofJson source (.obj members) = .error error) :
    ∃ problem identifier, error = DocumentProblem.error problem identifier ∧
      Blames source members identifier := by
  by_cases accepts : ∃ id, AcceptsId members id
  · obtain ⟨id, accepted⟩ := accepts
    obtain ⟨version, raw, _, _, same⟩ := ofJson_of_acceptsId accepted
    rw [same] at failed
    rcases bind_eq_error_iff.mp failed with broken | ⟨definitions, _, failed⟩
    · exact ⟨_, _, definitionsOf_eq_error broken, .document accepted⟩
    · rcases bind_eq_error_iff.mp failed with broken | ⟨_, _, impossible⟩
      · exact ⟨_, _, descriptionOf_eq_error broken, .document accepted⟩
      · cases impossible
  · push Not at accepts
    obtain ⟨problem, refused⟩ := ofJson_of_not_acceptsId accepts
    cases failed.symm.trans refused
    exact ⟨problem, source, rfl, .source accepts⟩

/-- A value that is no object is no document. -/
theorem ofJson_of_not_object (other : ∀ members, raw ≠ .obj members) :
    ofJson source raw = .error (DocumentProblem.error .notObject source) := by
  cases raw with
  | obj members => exact absurd rfl (other members)
  | _ => rfl

end LexiconCompiler.Document
