import LexiconCompiler.Proofs.Module.Skeleton
import LexiconCompiler.Proofs.Source.StatementStrings
import LexiconCompiler.Proofs.Source.TidiedContents

/-!
# The strings of a generated module

A module is laid out after its statements are written, and what is laid out does not tell
strings from code. The constants of a module are kept, since no string of theirs goes over a
line feed. A docstring is kept if its description is tidy, and tightened otherwise.
-/

namespace LexiconCompiler

open Source Traversal

namespace Source

/-! ## Docstrings -/

theorem feeds_escaped_iff (text : List Char) (count : Nat) :
    List.replicate count '\n' <+: escaped text ↔ List.replicate count '\n' <+: text := by
  induction text using escaped_induction generalizing count with
  | nil => exact Iff.rfl
  | triple rest _ =>
      cases count with
      | zero => exact iff_of_true List.nil_prefix List.nil_prefix
      | succ count => simp [escaped_triple, List.replicate_succ]
  | backslash rest _ =>
      cases count with
      | zero => exact iff_of_true List.nil_prefix List.nil_prefix
      | succ count => simp [escaped_backslash, List.replicate_succ]
  | other c rest noEscape noTriple ih =>
      cases count with
      | zero => exact iff_of_true List.nil_prefix List.nil_prefix
      | succ count =>
          rw [escaped_other noEscape noTriple, List.replicate_succ, List.cons_prefix_cons,
            List.cons_prefix_cons, ih]

theorem exceeds_escaped_iff (c : Char) (text : List Char) :
    Exceeds c (escaped text) ↔ Exceeds c text := by
  rw [Exceeds, Exceeds, feeds_escaped_iff, ← List.replicate_one, feeds_escaped_iff]

theorem tidy_cons_iff_of_solid {c : Char} (solid : Text.isBlank c = false) (rest : List Char) :
    Tidy (c :: rest) ↔ Tidy rest :=
  tidy_cons_iff.trans (and_iff_left (not_exceeds_of_solid solid rest))

/-- Escapes keep a text tidy, or untidy. -/
theorem tidy_escaped_iff (text : List Char) : Tidy (escaped text) ↔ Tidy text := by
  have quote := tidy_cons_iff_of_solid (show Text.isBlank '"' = false by decide)
  have backslash := tidy_cons_iff_of_solid (show Text.isBlank '\\' = false by decide)
  induction text using escaped_induction with
  | nil => exact Iff.rfl
  | triple rest ih =>
      simp only [escaped_triple, List.cons_append, List.nil_append, quote, backslash, ih]
  | backslash rest ih =>
      simp only [escaped_backslash, List.cons_append, List.nil_append, backslash, ih]
  | other c rest noEscape noTriple ih =>
      rw [escaped_other noEscape noTriple, tidy_cons_iff, tidy_cons_iff]
      exact and_congr ih (not_congr (exceeds_escaped_iff c rest))

theorem tidy_escapeLastQuote_iff (text : List Char) :
    Tidy (escapeLastQuote text) ↔ Tidy text := by
  rw [escapeLastQuote]
  split
  · rename_i last
    obtain ⟨front, rfl⟩ := List.getLast?_eq_some_iff.mp last
    have quote : Tidy ['"'] := by decide
    rw [List.dropLast_concat, tidy_append_cons_iff (by decide), tidy_append_cons_iff (by decide)]
    exact and_congr_right fun _ => iff_of_true quote .nil
  · exact Iff.rfl

/-- A docstring is tidy iff its description is, apart from the blanks around it. -/
theorem tidy_docstringOf_iff (text : List Char) :
    Tidy (docstringOf text) ↔ Tidy (Text.trim text) :=
  (tidy_escapeLastQuote_iff _).trans (tidy_escaped_iff _)

theorem tidy_written (text : String) : Tidy (written text) := by
  apply tidy_of_no_feed
  intro feed
  cases (Reading.written_flatMap_writtenChar text.toList).unbroken '\n' feed

end Source

/-! ## Modules -/

namespace Module

variable {generated : Module}

theorem tidy_docstring?_iff {struct : Struct} :
    (∀ content, struct.docstring? = some content → Tidy content) ↔
      ∀ description, struct.description = some description →
        Tidy (Text.trim description.toList) := by
  rw [Struct.docstring?]
  cases struct.description with
  | none => simp
  | some description =>
      simp only [Option.map_eq_some_iff, Option.some.injEq, forall_eq']
      by_cases empty : description = ""
      · subst empty
        exact iff_of_true (by simp) (show Tidy (Text.trim []) from .nil)
      · simp [Option.filter, empty, tidy_docstringOf_iff]

/-- The strings of a module are tidy iff its descriptions are. -/
theorem tidy_strings_iff : (∀ content ∈ generated.strings, Tidy content) ↔
    ∀ struct ∈ generated.structs, ∀ description, struct.description = some description →
      Tidy (Text.trim description.toList) := by
  have constants : ∀ content ∈ (generated.methods.flatMap Constants.texts).map written,
      Tidy content := by
    intro content member
    obtain ⟨text, _, rfl⟩ := List.mem_map.mp member
    exact tidy_written text
  rw [strings, List.forall_mem_append, and_iff_right constants, List.forall_mem_filterMap]
  exact forall₂_congr fun struct _ => tidy_docstring?_iff

/-- Laying a module out keeps its strings and tightens their contents, and keeps the contents,
too, exactly if all of them are tidy. If the id of the module stays on its line and no
docstring closes early, the strings are the constants and the docstrings, and they are all
tidy exactly if the descriptions are. -/
theorem text_keeps_strings_iff {sourceId : String} {definitions : List Definition}
    (made : ofDefinitions sourceId definitions = .ok generated) :
    (∀ contents, stringsOf generated.draftText = some contents →
      stringsOf generated.text.toList = some (contents.map tighten) ∧
      (stringsOf generated.text.toList = some contents ↔
        ∀ content ∈ contents, Tidy content)) ∧
    (Reading.Unbroken sourceId.toList →
      (∀ struct ∈ generated.structs, ∀ description, struct.description = some description →
        ¬ ClosesEarly (Text.trim description.toList)) →
      stringsOf generated.draftText = some generated.strings ∧
      (stringsOf generated.text.toList = some generated.strings ↔
        ∀ struct ∈ generated.structs, ∀ description, struct.description = some description →
          Tidy (Text.trim description.toList))) := by
  have keeps : ∀ contents, stringsOf generated.draftText = some contents →
      stringsOf generated.text.toList = some (contents.map tighten) ∧
      (stringsOf generated.text.toList = some contents ↔
        ∀ content ∈ contents, Tidy content) := by
    intro contents read
    have laidOut : stringsOf generated.text.toList = some (contents.map tighten) := by
      rw [text, String.toList_ofList]
      exact stringsOf_tidyOf read
    refine ⟨laidOut, ?_⟩
    rw [laidOut, Option.some.injEq]
    exact map_tighten_eq_self_iff
  refine ⟨keeps, ?_⟩
  intro unbroken closes
  obtain ⟨rfl, structs, constants, structsMade, constantsMade, holds⟩ :=
    holds_of_ofDefinitions made
  have stems : ∀ constants ∈ generated.methods, Name.isDeclarable constants.stem = true := by
    intro one member
    rw [holds.methods_eq] at member
    exact Definition.isDeclarable_of_mem_constants constantsMade member
  have declared : ∀ struct ∈ generated.structs, Name.isDeclarable struct.name = true ∧
      ∀ field ∈ struct.fields, Declared field := by
    intro struct member
    obtain ⟨_, _, _, own, among⟩ := holds.definition_of_mem structsMade member
    exact Definition.declared_of_mem_structs own among
  have has := hasStrings_draftText unbroken stems (fun struct member => (declared struct member).1)
    (fun struct member => (declared struct member).2) closes
  refine ⟨has.stringsOf, ?_⟩
  rw [(keeps _ has.stringsOf).2]
  exact tidy_strings_iff

/-- An object whose description has a blank at the end of a line. -/
def spacedObject : Definition where
  id := "x.note"
  kind := .object { properties := .empty, required := [] }
  revision := none
  description := some "a \nb"

/-- The module of the object. -/
def spacedModule : Module where
  sourceId := "x.note"
  structs := [{ name := "Note", fields := [], description := some "a \nb" }]
  methods := []

theorem ofDefinitions_spacedObject :
    ofDefinitions "x.note" [spacedObject] = .ok spacedModule := by
  decide +kernel

theorem text_tightens_strings_spacedModule :
    stringsOf spacedModule.draftText = some ["a \nb".toList] ∧
      stringsOf spacedModule.text.toList = some ["a\nb".toList] ∧
      ¬ Tidy (Text.trim "a \nb".toList) := by
  obtain ⟨keeps, constants⟩ := text_keeps_strings_iff ofDefinitions_spacedObject
  have strings : spacedModule.strings = ["a \nb".toList] := by decide
  have closes : ∀ struct ∈ spacedModule.structs, ∀ description,
      struct.description = some description → ¬ ClosesEarly (Text.trim description.toList) := by
    intro struct member description described
    cases List.mem_singleton.mp member
    cases described
    decide
  obtain ⟨drafted, kept⟩ := constants (by decide) closes
  have laidOut := (keeps _ drafted).1
  rw [strings] at drafted laidOut kept
  have tightened : ["a \nb".toList].map tighten = ["a\nb".toList] := by decide
  rw [tightened] at laidOut
  refine ⟨drafted, laidOut, ?_⟩
  intro tidy
  have same := kept.mpr fun struct member description described => by
    cases List.mem_singleton.mp member
    cases described
    exact tidy
  cases laidOut.symm.trans same

/-- The blank at the end of the line is taken away, though it stands in a docstring. -/
theorem text_changes_docstring : ¬ ∀ generated,
    ofDefinitions "x.note" [spacedObject] = .ok generated →
      stringsOf generated.text.toList = stringsOf generated.draftText := by
  intro keeps
  have drafted : stringsOf spacedModule.draftText = some ["a \nb".toList] := by decide +kernel
  have laidOut : stringsOf spacedModule.text.toList = some ["a\nb".toList] := by
    rw [text, String.toList_ofList]
    exact stringsOf_tidyOf drafted
  have same := keeps spacedModule ofDefinitions_spacedObject
  rw [drafted, laidOut] at same
  cases same

end Module

end LexiconCompiler
