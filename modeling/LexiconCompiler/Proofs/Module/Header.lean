import LexiconCompiler.Proofs.Module.Generation
import LexiconCompiler.Proofs.Source.Tidying

/-!
# The header of a module

The id that a module is generated from stands in the comment on its first line, and nothing
else depends on it. The id is written as it is, so an id with a line break in it goes on
after the comment, and there it is source text of its own.
-/

namespace LexiconCompiler.Module

open Source Traversal

variable {first second sourceId : String} {definitions : List Definition} {generated : Module}
  {breaks : Char → Bool}

/-- The first line of a text, where some characters break lines. -/
def firstLine (breaks : Char → Bool) (text : String) : List Char :=
  text.toList.takeWhile fun c => !breaks c

/-- What stands behind the character that ends the first line of a text. -/
def afterFirstLine (breaks : Char → Bool) (text : String) : List Char :=
  (text.toList.dropWhile fun c => !breaks c).drop 1

/-- The line of the header, with its mark. -/
def headerLine (sourceId : String) : List Char :=
  "# ".toList ++ (header sourceId).toList

/-- The text of a module behind its header, which the id has no part in. -/
def body (generated : Module) : List Char :=
  (tidyLines (generated.statements.tail.flatMap Statement.render)).flatMap ended

/-! ## Texts with a first line -/

theorem firstLine_eq_of_append {line rest : List Char} (feed : breaks '\n' = true)
    (unbroken : ∀ c ∈ line, breaks c = false) :
    firstLine breaks (String.ofList (ended line ++ rest)) = line := by
  have all : ∀ c ∈ line, (!breaks c) = true := fun c member => by simp [unbroken c member]
  rw [firstLine, String.toList_ofList, ended, List.append_assoc,
    List.takeWhile_append_of_pos all, List.singleton_append,
    List.takeWhile_cons_of_neg (by simp [feed]), List.append_nil]

theorem afterFirstLine_eq_of_append {line rest : List Char} (feed : breaks '\n' = true)
    (unbroken : ∀ c ∈ line, breaks c = false) :
    afterFirstLine breaks (String.ofList (ended line ++ rest)) = rest := by
  have all : ∀ c ∈ line, (!breaks c) = true := fun c member => by simp [unbroken c member]
  rw [afterFirstLine, String.toList_ofList, ended, List.append_assoc,
    List.dropWhile_append_of_pos all, List.singleton_append,
    List.dropWhile_cons_of_neg (by simp [feed]), List.drop_one, List.tail_cons]

theorem breaks_eq_false_of_mem_firstLine {text : String} {c : Char}
    (member : c ∈ firstLine breaks text) : breaks c = false := by
  have all := List.all_eq_true.mp List.all_takeWhile c member
  simpa using all

/-! ## The header -/

theorem headerLine_eq (sourceId : String) : headerLine sourceId =
    "# ".toList ++ ("Generated by lexgen from ".toList ++ sourceId.toList ++
      ". Do not edit.".toList) := by
  unfold headerLine header
  rw [String.toList_append, String.toList_append]

theorem solid_headerLine (sourceId : String) : Solid (headerLine sourceId) := by
  rw [headerLine_eq]
  exact Solid.append (Solid.append (by decide) _) _

/-- The words of the header are printable, so only the id may break its line. -/
theorem breaks_headerLine_iff
    (printable : ∀ c, ' ' ≤ c → c ≤ '~' → breaks c = false) :
    (∀ c ∈ headerLine sourceId, breaks c = false) ↔
      ∀ c ∈ sourceId.toList, breaks c = false := by
  have words : ∀ part ∈ ["# ", "Generated by lexgen from ", ". Do not edit."],
      ∀ c ∈ part.toList, breaks c = false := by
    have ascii : ∀ part ∈ ["# ", "Generated by lexgen from ", ". Do not edit."],
        ∀ c ∈ part.toList, ' ' ≤ c ∧ c ≤ '~' := by
      simp
    intro part among c member
    obtain ⟨low, high⟩ := ascii part among c member
    exact printable c low high
  simp only [List.forall_mem_cons] at words
  rw [headerLine_eq]
  simp only [List.forall_mem_append]
  exact ⟨fun whole => whole.2.1.2, fun named => ⟨words.1, ⟨words.2.1, named⟩, words.2.2.1⟩⟩

/-! ## Modules of two ids -/

theorem ofDefinitions_eq_map (first second : String) (definitions : List Definition) :
    ofDefinitions second definitions =
      (ofDefinitions first definitions).map fun generated =>
        { generated with sourceId := second } := by
  rw [ofDefinitions, ofDefinitions]
  cases definitions.foldlM Draft.add .empty <;> rfl

theorem body_eq_of_ofDefinitions {one other : Module}
    (made : ofDefinitions first definitions = .ok one)
    (again : ofDefinitions second definitions = .ok other) : other.body = one.body := by
  rw [ofDefinitions_eq_map first second, made] at again
  cases again
  rfl

theorem draftText_eq (generated : Module) : generated.draftText =
    ended (headerLine generated.sourceId) ++
      generated.statements.tail.flatMap Statement.render := rfl

/-- A module whose id has no line feed begins with its header. -/
theorem text_eq (unbroken : '\n' ∉ generated.sourceId.toList) :
    generated.text = String.ofList (ended (headerLine generated.sourceId) ++ generated.body) := by
  have line : '\n' ∉ headerLine generated.sourceId := by
    rw [headerLine_eq]
    simp only [List.mem_append, not_or]
    exact ⟨by decide, ⟨by decide, unbroken⟩, by decide⟩
  rw [text, draftText_eq, tidyOf_ended_append (solid_headerLine _) line, body]

/-- A module whose id breaks no line is its header and what stands behind it. -/
theorem lines_of_source (feed : breaks '\n' = true)
    (printable : ∀ c, ' ' ≤ c → c ≤ '~' → breaks c = false) {source : String}
    (made : Module.source sourceId definitions = .ok source)
    (unbroken : ∀ c ∈ sourceId.toList, breaks c = false) :
    ∃ generated, ofDefinitions sourceId definitions = .ok generated ∧
      firstLine breaks source = headerLine sourceId ∧
      afterFirstLine breaks source = generated.body := by
  obtain ⟨generated, holds, equal⟩ := bind_eq_ok_iff.mp made
  have named := (holds_of_ofDefinitions holds).1
  have noFeed : '\n' ∉ generated.sourceId.toList := by
    intro member
    rw [named] at member
    rw [unbroken '\n' member] at feed
    cases feed
  have shown : source = generated.text := (Except.ok.inj equal).symm
  have line := (breaks_headerLine_iff printable).mpr unbroken
  rw [text_eq noFeed, named] at shown
  rw [shown]
  exact ⟨generated, holds, firstLine_eq_of_append feed line,
    afterFirstLine_eq_of_append feed line⟩

/-- Two modules of the same definitions begin with the headers of their ids and are the same
behind them iff no character of either id breaks a line. Whatever else breaks lines, a line
feed does, and the printable characters do not. -/
theorem source_shows_id_in_header_iff (feed : breaks '\n' = true)
    (printable : ∀ c, ' ' ≤ c → c ≤ '~' → breaks c = false) {source other : String}
    (made : Module.source first definitions = .ok source)
    (again : Module.source second definitions = .ok other) :
    (firstLine breaks source = headerLine first ∧ firstLine breaks other = headerLine second ∧
        afterFirstLine breaks source = afterFirstLine breaks other) ↔
      (∀ c ∈ first.toList, breaks c = false) ∧ ∀ c ∈ second.toList, breaks c = false := by
  constructor
  · intro ⟨named, renamed, _⟩
    rw [← breaks_headerLine_iff printable, ← breaks_headerLine_iff printable, ← named, ← renamed]
    exact ⟨fun c => breaks_eq_false_of_mem_firstLine, fun c => breaks_eq_false_of_mem_firstLine⟩
  · intro ⟨unbroken, also⟩
    obtain ⟨one, holds, named, behind⟩ := lines_of_source feed printable made unbroken
    obtain ⟨two, contains, renamed, rest⟩ := lines_of_source feed printable again also
    refine ⟨named, renamed, ?_⟩
    rw [behind, rest, body_eq_of_ofDefinitions holds contains]

/-! ## Ids of one line and of two -/

theorem endsLine_eq_false_of_printable (c : Char) (low : ' ' ≤ c) (_ : c ≤ '~') :
    endsLine c = false := by
  have feed : c ≠ '\n' := by
    rintro rfl
    revert low
    decide
  have carriage : c ≠ '\r' := by
    rintro rfl
    revert low
    decide
  simp [endsLine, feed, carriage]

/-- What is generated for an object without properties, behind the header. -/
def bareBody : String :=
  "\n\nfrom __future__ import annotations\n\nfrom dataclasses import dataclass\n\n\n" ++
    "@dataclass\nclass Note:\n    pass\n"

theorem source_shows_id_in_header_of_bareObject :
    ∃ source other, Module.source "x.note" [bareObject "x.note"] = .ok source ∧
      Module.source "x.post" [bareObject "x.note"] = .ok other ∧
      firstLine endsLine source = headerLine "x.note" ∧
      firstLine endsLine other = headerLine "x.post" ∧
      afterFirstLine endsLine source = afterFirstLine endsLine other := by
  have made : Module.source "x.note" [bareObject "x.note"] =
      .ok ("# Generated by lexgen from x.note. Do not edit." ++ bareBody) := by
    decide +kernel
  have again : Module.source "x.post" [bareObject "x.note"] =
      .ok ("# Generated by lexgen from x.post. Do not edit." ++ bareBody) := by
    decide +kernel
  exact ⟨_, _, made, again,
    (source_shows_id_in_header_iff (by decide) endsLine_eq_false_of_printable made again).mpr
      (by simp [endsLine])⟩

/-- An id with a line feed in it: the first line does not name it, and what stands behind
that line is not what another id leaves there. -/
theorem source_shows_id_behind_header :
    ∃ source other, Module.source "a\nb" [bareObject "x.note"] = .ok source ∧
      Module.source "c" [bareObject "x.note"] = .ok other ∧
      firstLine endsLine source ≠ headerLine "a\nb" ∧
      afterFirstLine endsLine source ≠ afterFirstLine endsLine other := by
  have made : Module.source "a\nb" [bareObject "x.note"] =
      .ok ("# Generated by lexgen from a\nb. Do not edit." ++ bareBody) := by
    decide +kernel
  have again : Module.source "c" [bareObject "x.note"] =
      .ok ("# Generated by lexgen from c. Do not edit." ++ bareBody) := by
    decide +kernel
  have broken : '\n' ∈ headerLine "a\nb" := by decide
  refine ⟨_, _, made, again, ?_, by decide +kernel⟩
  intro named
  rw [← named] at broken
  cases breaks_eq_false_of_mem_firstLine broken

end LexiconCompiler.Module
