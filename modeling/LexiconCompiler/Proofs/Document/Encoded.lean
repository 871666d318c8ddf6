import LexiconCompiler.Proofs.Document.Envelope
import LexiconCompiler.Proofs.Encoding.RoundTrip
import LexiconCompiler.Proofs.Json.Series

/-!
# Documents in bytes

The text of a document starts with two characters of ASCII, because the document is an
object. So the encoding of its bytes is detected, whichever it is, and the bytes are read as
the same document.
-/

namespace LexiconCompiler

open Traversal

namespace Json

variable {α : Type} {text rest : List Char} {value : Json} {members : List (String × Json)}
  {container : Container} {build : List α → Json}
  {entry : List Char → Except Refusal (Parsed α)}

/-! ## Objects in a text -/

theorem not_obj_of_readScalar : readScalar text ≠ .ok (.obj members, rest) := by
  intro parsed
  rw [readScalar] at parsed
  split at parsed
  · rename_i found word
    cases parsed
    obtain ⟨_, member, _⟩ := exists_of_wordAt? word
    simp [valueWords] at member
  · split at parsed
    · cases parsed
    · obtain ⟨found, valued, equal⟩ := bind_eq_ok_iff.mp parsed
      cases equal
      rw [numeralValue] at valued
      split at valued
      · split at valued <;> cases valued
      · cases valued

/-- A container is read as a list of entries. It closes after its opening bracket and layout,
or an entry starts there. -/
theorem exists_head_of_readContainer
    (parsed : readContainer container entry build text = .ok (value, rest)) :
    ∃ c after, skipLayout text = c :: after ∧
      (c = container.closing ∨ ∃ found, entry (c :: after) = .ok found) ∧
      ∃ values, value = build values := by
  by_cases closes : (skipLayout text).head? = some container.closing
  · obtain ⟨after, closes⟩ := List.head?_eq_some_iff.mp closes
    rw [readContainer_closed closes] at parsed
    cases parsed
    exact ⟨_, _, closes, .inl rfl, [], rfl⟩
  · rw [readContainer_series closes] at parsed
    obtain ⟨⟨values, left⟩, series, equal⟩ := map_eq_ok_iff.mp parsed
    cases equal
    cases spelled : skipLayout text with
    | nil =>
        rw [spelled] at series
        cases series
    | cons c after =>
        rw [spelled] at series
        obtain ⟨found, here, _⟩ := bind_eq_ok_iff.mp series
        exact ⟨c, after, rfl, .inr ⟨found, here⟩, values, rfl⟩

theorem exists_quote_of_readKey {key : String} (parsed : readKey text = .ok (key, rest)) :
    ∃ after, text = '"' :: after := by
  unfold readKey at parsed
  split at parsed
  · exact ⟨_, rfl⟩
  · cases parsed

/-- After its brace an object goes on with layout, a key or the other brace. -/
theorem exists_head_of_readObject {read : List Char → Except Refusal (Parsed Json)}
    (parsed : readObject read text = .ok (value, rest)) :
    ∃ c after, text = c :: after ∧ (isLayout c = true ∨ c = '"' ∨ c = '\x7d') := by
  rw [readObject_eq] at parsed
  obtain ⟨c, after, starts, begins, _⟩ := exists_head_of_readContainer parsed
  obtain ⟨blanks, layout, split⟩ := exists_layout_append text
  rw [starts] at split
  cases blanks with
  | cons blank blanks => exact ⟨blank, _, split, .inl (layout blank List.mem_cons_self)⟩
  | nil =>
      refine ⟨c, after, split, .inr ?_⟩
      rcases begins with closes | ⟨found, here⟩
      · exact .inr closes
      · obtain ⟨key, keyed, _⟩ := bind_eq_ok_iff.mp here
        obtain ⟨_, quote⟩ := exists_quote_of_readKey keyed
        exact .inl (List.cons.inj quote).1

/-- A value is an object only if its text starts with a brace. -/
theorem exists_head_of_readValue {depth : Nat}
    (parsed : readValue depth text = .ok (.obj members, rest)) :
    ∃ c after, text = '\x7b' :: c :: after ∧ (isLayout c = true ∨ c = '"' ∨ c = '\x7d') := by
  obtain ⟨nested, readsWith⟩ : ∃ nested, readValue depth = readWith nested := by
    cases depth <;> exact ⟨_, rfl⟩
  rw [readsWith] at parsed
  by_cases opens : Opens text
  · obtain ⟨c, after, rfl, rfl | rfl | rfl⟩ := opens
    · obtain ⟨_, _, impossible⟩ := bind_eq_ok_iff.mp parsed
      cases impossible
    · cases nested with
      | none => cases parsed
      | some read =>
          rw [readWith, readArray_eq] at parsed
          obtain ⟨_, _, _, _, _, impossible⟩ := exists_head_of_readContainer parsed
          cases impossible
    · cases nested with
      | none => cases parsed
      | some read =>
          obtain ⟨c, later, rfl, head⟩ := exists_head_of_readObject parsed
          exact ⟨c, later, rfl, head⟩
  · rw [readWith_of_not_opens opens] at parsed
    exact absurd parsed not_obj_of_readScalar

/-- Characters of layout are characters of ASCII. -/
theorem ascii_of_isLayout {c : Char} (layout : isLayout c = true) :
    0 < c.toNat ∧ c.toNat < 0x80 := by
  simp only [isLayout, Bool.or_eq_true, beq_iff_eq] at layout
  rcases layout with ((rfl | rfl) | rfl) | rfl <;> decide

/-- The text of an object starts with two characters of ASCII. -/
theorem startsAscii_of_read {depth : Nat} (parsed : Json.read depth text = .ok (.obj members)) :
    Encoding.StartsAscii text := by
  obtain ⟨⟨value, left⟩, found, ended⟩ := bind_eq_ok_iff.mp parsed
  dsimp only at ended
  split at ended
  · cases ended
    obtain ⟨c, after, starts, next⟩ := exists_head_of_readValue found
    obtain ⟨blanks, layout, split⟩ := exists_layout_append text
    rw [starts] at split
    rcases blanks with _ | ⟨first, _ | ⟨second, blanks⟩⟩
    · refine ⟨_, _, _, split, by decide, ?_⟩
      rcases next with blank | rfl | rfl
      · exact ascii_of_isLayout blank
      · decide
      · decide
    · exact ⟨_, _, _, split, ascii_of_isLayout (layout _ (by simp)), by decide⟩
    · exact ⟨_, _, _, split, ascii_of_isLayout (layout _ (by simp)),
        ascii_of_isLayout (layout _ (by simp))⟩
  · cases ended

end Json

namespace Document

variable {depth : Nat} {source : Option String} {document : Document} {text : List Char}

theorem parse_congr {input other : Input} (same : input.characters = other.characters) :
    parse depth source input = parse depth source other := by
  rw [parse, parse, same]

theorem characters_of_decode {bytes : List UInt8} (decoded : Encoding.decode bytes = .ok text) :
    (Input.bytes bytes).characters = .ok text := by
  rw [Input.characters, decoded]

theorem characters_text {content : List Char}
    (taken : (Input.text text).characters = .ok content) : content = text := by
  cases text with
  | nil =>
      cases taken
      rfl
  | cons c rest =>
      by_cases marked : c = '\uFEFF'
      · subst marked
        cases taken
      · have whole : (Input.text (c :: rest)).characters = .ok (c :: rest) := by
          rw [Input.characters]
          rintro after ⟨⟩
          exact marked rfl
        cases taken.symm.trans whole
        rfl

/-- The text of a document is read as an object. -/
theorem exists_read_of_parse (parsed : parse depth source (.text text) = .ok document) :
    (Input.text text).characters = .ok text ∧
      ∃ members, Json.read depth text = .ok (.obj members) := by
  rw [parse] at parsed
  cases taken : (Input.text text).characters with
  | error problem =>
      rw [taken] at parsed
      cases parsed
  | ok content =>
      obtain rfl := characters_text taken
      rw [taken] at parsed
      obtain ⟨raw, read, checked⟩ := bind_eq_ok_iff.mp parsed
      refine ⟨rfl, ?_⟩
      by_cases object : ∃ members, raw = .obj members
      · obtain ⟨members, rfl⟩ := object
        rw [readJson] at read
        split at read
        · rename_i found
          cases read
          exact ⟨members, found⟩
        all_goals cases read
      · push Not at object
        rw [ofJson_of_not_object object] at checked
        cases checked

/-- The text of a document, as bytes in any encoding and with or without the mark of the
encoding, is read as the same document. -/
theorem parse_encoded (parsed : parse depth source (.text text) = .ok document)
    (encoding : Encoding) :
    parse depth source (.bytes (encoding.encode text)) = .ok document ∧
      parse depth source (.bytes (encoding.mark ++ encoding.encode text)) = .ok document := by
  obtain ⟨characters, members, read⟩ := exists_read_of_parse parsed
  obtain ⟨unmarked, marked⟩ := (Json.startsAscii_of_read read).decode encoding
  constructor
  · rw [← parsed]
    exact parse_congr ((characters_of_decode unmarked).trans characters.symm)
  · rw [← parsed]
    exact parse_congr ((characters_of_decode marked).trans characters.symm)

/-- A document with a description above the basic plane. -/
def astralText : List Char :=
  "\x7b\"lexicon\":1,\"id\":\"a.b\",\"description\":\"".toList ++
    Char.ofNat 0x1F600 :: "\",\"defs\":\x7b\"main\":\x7b\"type\":\"token\"\x7d\x7d\x7d".toList

theorem parse_encoded_astralText :
    ∃ document, parse 3 none (.text astralText) = .ok document ∧
      document.description = some (String.singleton (Char.ofNat 0x1F600)) ∧
      ∀ encoding : Encoding, parse 3 none (.bytes (encoding.encode astralText)) = .ok document ∧
        parse 3 none (.bytes (encoding.mark ++ encoding.encode astralText)) = .ok document := by
  have described : (parse 3 none (.text astralText)).toOption.map Document.description =
      some (some (String.singleton (Char.ofNat 0x1F600))) := by
    decide +kernel
  cases parsed : parse 3 none (.text astralText) with
  | error failure =>
      rw [parsed] at described
      cases described
  | ok document =>
      rw [parsed] at described
      exact ⟨document, rfl, Option.some.inj described, parse_encoded parsed⟩

end Document

end LexiconCompiler
