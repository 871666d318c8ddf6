import LexiconCompiler.Document
import LexiconCompiler.Proofs.Schema.Blame
import LexiconCompiler.Proofs.Schema.Decoding
import Mathlib.Data.List.Nodup

/-!
# The definitions of a document

A document is expanded entry by entry: every entry gives one definition under an id of its
own, or the first entry that cannot be decoded gives the error. The id of the document is
left for the main entry.
-/

namespace LexiconCompiler

open Traversal

namespace Name

/-- Only the main definition has the id of its document. -/
theorem qualified_eq_iff {documentId localName : String} :
    qualified documentId localName = documentId ↔ localName = mainName := by
  have main : qualified documentId localName = qualified documentId mainName ↔
      localName = mainName := qualified_inj
  rwa [qualified_main] at main

end Name

namespace Document

variable {document : Document} {definitions : List Definition}

theorem expand_eq_ok_iff :
    document.expand = .ok definitions ↔
      List.Forall₂ (fun entry definition => document.decodeEntry entry = .ok definition)
        document.definitions.entries definitions :=
  mapM_eq_ok_iff

theorem id_of_decodeEntry {entry : String × Json} {definition : Definition}
    (decoded : document.decodeEntry entry = .ok definition) :
    definition.id = Name.qualified document.id entry.1 := by
  obtain ⟨_, _, _, _, idEqual, _⟩ := Definition.decode_eq_ok decoded
  exact idEqual

/-- The ids of the definitions are the local names, qualified. -/
theorem ids_of_expand (expanded : document.expand = .ok definitions) :
    definitions.map Definition.id =
      document.definitions.keys.map (Name.qualified document.id) := by
  rw [Table.keys, List.map_map]
  symm
  rw [← List.forall₂_eq_eq_eq, List.forall₂_map_left_iff, List.forall₂_map_right_iff]
  refine (expand_eq_ok_iff.mp expanded).imp ?_
  intro entry definition decoded
  exact (id_of_decodeEntry decoded).symm

theorem nodup_ids_of_expand (expanded : document.expand = .ok definitions) :
    (definitions.map Definition.id).Nodup := by
  rw [ids_of_expand expanded]
  exact List.Nodup.map (fun _ _ => Name.qualified_inj.mp) document.definitions.distinct

/-- One definition has the id of the document if there is a main entry, and none if not. -/
theorem count_id_of_expand (expanded : document.expand = .ok definitions) :
    (definitions.map Definition.id).count document.id =
      if Name.mainName ∈ document.definitions.keys then 1 else 0 := by
  have own : document.id ∈ definitions.map Definition.id ↔
      Name.mainName ∈ document.definitions.keys := by
    rw [ids_of_expand expanded, List.mem_map]
    simp only [Name.qualified_eq_iff, exists_eq_right]
  rw [(nodup_ids_of_expand expanded).count]
  simp only [own]

/-- A document is expanded into one definition for every entry, in order, each under an id of
its own, of which only the main entry has that of the document. If some entry cannot be
decoded, the first one gives the error, which names the entry or one of its properties. -/
theorem expand_gives_or_blames (document : Document) :
    ((∀ entry ∈ document.definitions.entries,
        Succeeds (Definition.decode (Name.qualified document.id entry.1) entry.2)) →
      ∃ definitions, document.expand = .ok definitions ∧
        List.Forall₂ (fun entry definition =>
            Definition.decode (Name.qualified document.id entry.1) entry.2 = .ok definition ∧
              (definition.id = document.id ↔ entry.1 = Name.mainName))
          document.definitions.entries definitions ∧
        (definitions.map Definition.id).Nodup ∧
        (definitions.map Definition.id).count document.id =
          if Name.mainName ∈ document.definitions.keys then 1 else 0) ∧
    ((¬ ∀ entry ∈ document.definitions.entries,
        Succeeds (Definition.decode (Name.qualified document.id entry.1) entry.2)) →
      ∃ before entry after error, document.definitions.entries = before ++ entry :: after ∧
        (∀ earlier ∈ before,
          Succeeds (Definition.decode (Name.qualified document.id earlier.1) earlier.2)) ∧
        Definition.decode (Name.qualified document.id entry.1) entry.2 = .error error ∧
        document.expand = .error error ∧
        (error.identifier = some (Name.qualified document.id entry.1) ∨
          ∃ properties, entry.2.HasPropertyTable properties ∧
            ∃ property ∈ properties, error.identifier =
              some (Name.qualified document.id entry.1 ++ "#" ++ property.1))) := by
  have succeeds : Succeeds document.expand ↔ ∀ entry ∈ document.definitions.entries,
      Succeeds (Definition.decode (Name.qualified document.id entry.1) entry.2) :=
    succeeds_mapM_iff
  rw [← succeeds]
  constructor
  · rintro ⟨definitions, expanded⟩
    refine ⟨definitions, expanded, (expand_eq_ok_iff.mp expanded).imp ?_,
      nodup_ids_of_expand expanded, count_id_of_expand expanded⟩
    intro entry definition decoded
    rw [id_of_decodeEntry decoded, Name.qualified_eq_iff]
    exact ⟨decoded, Iff.rfl⟩
  · intro refused
    obtain ⟨error, failed⟩ := not_succeeds_iff.mp refused
    obtain ⟨before, entry, after, split, passes, fails⟩ := mapM_eq_error_iff.mp failed
    refine ⟨before, entry, after, error, split, passes, fails, failed, ?_⟩
    cases Definition.blamesOnly_decode _ _ error fails with
    | definition named => exact .inl named
    | property table member _ named => exact .inr ⟨_, table, _, member, named⟩

/-- A token without a name, the main definition, and a name with a dot in it. -/
def namesakes : Document where
  version := 1
  id := "x.y"
  description := none
  definitions := .ofList
    [("", .obj [("type", .str "token")]),
     ("main", .obj [("type", .str "object"), ("properties", .obj [])]),
     ("main.main", .obj [("type", .str "token")])]

/-- A token, a record with a property of an unknown type, and an entry that is no object. -/
def faultyRecord : Document where
  version := 1
  id := "x.y"
  description := none
  definitions := .ofList
    [("main", .obj [("type", .str "token")]),
     ("post", .obj [("type", .str "record"), ("record", .obj [
       ("properties", .obj [("text", .obj [("type", .str "widget")])])])]),
     ("last", .null)]

theorem expand_gives_namesakes_or_blames_faultyRecord :
    (∃ definitions, namesakes.expand = .ok definitions ∧
      (definitions.map Definition.id).Nodup ∧
      (definitions.map Definition.id).count "x.y" = 1) ∧
    ∃ entry ∈ faultyRecord.definitions.entries, ∃ error : Error,
      faultyRecord.expand = .error error ∧
      ∃ properties, entry.2.HasPropertyTable properties ∧
        ∃ property ∈ properties, error.identifier =
          some (Name.qualified "x.y" entry.1 ++ "#" ++ property.1) := by
  obtain ⟨gives, _⟩ := expand_gives_or_blames namesakes
  obtain ⟨_, blames⟩ := expand_gives_or_blames faultyRecord
  constructor
  · have decodes : ∀ entry ∈ namesakes.definitions.entries,
        (Definition.decode (Name.qualified namesakes.id entry.1) entry.2).isOk = true := by
      decide +kernel
    obtain ⟨definitions, expanded, _, distinct, counted⟩ := gives fun entry member => by
      cases found : Definition.decode (Name.qualified namesakes.id entry.1) entry.2 with
      | ok definition => exact succeeds_ok definition
      | error error =>
          have passes := decodes entry member
          rw [found] at passes
          cases passes
    have main : Name.mainName ∈ namesakes.definitions.keys := by decide +kernel
    rw [if_pos main] at counted
    exact ⟨definitions, expanded, distinct, counted⟩
  · have failed : faultyRecord.expand = .error {
        cause := .unknownField
        identifier := some "x.y.post#text"
        tag := some "widget" } := by
      decide +kernel
    have refused : ¬ Succeeds faultyRecord.expand := not_succeeds_iff.mpr ⟨_, failed⟩
    obtain ⟨before, entry, after, error, split, _, _, raised, named⟩ :=
      blames fun every => refused (succeeds_mapM_iff.mpr every)
    have member : entry ∈ faultyRecord.definitions.entries := by
      rw [split]
      exact List.mem_append_right before List.mem_cons_self
    have other : ∀ entry ∈ faultyRecord.definitions.entries,
        some "x.y.post#text" ≠ some (Name.qualified faultyRecord.id entry.1) := by
      decide +kernel
    rcases named with named | named
    · rw [failed] at raised
      cases raised
      exact absurd named (other entry member)
    · exact ⟨entry, member, error, raised, named⟩

end Document

end LexiconCompiler
