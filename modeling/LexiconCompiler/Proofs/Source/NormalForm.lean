import LexiconCompiler.Proofs.Source.Tightening
import Mathlib.Data.List.DropRight

/-!
# The normal form of a text

What is kept of a text when it is laid out are its lines that are not blank, without the
blanks at their ends, and the number of blank lines before each of them, up to the limit.
These determine the laid out text, and the laid out text has them, too. So laying out gives
one normal form to all texts that agree in them: `tidyOf_eq_tidyOf_iff`.
-/

namespace LexiconCompiler.Source

variable {line text : List Char} {blanks lines : List (List Char)}

/-! ## Lines and the blank lines before them -/

/-- Whether a line has no characters but blank ones. -/
def isBlankLine (line : List Char) : Bool :=
  line.all Text.isBlank

/-- A line and the number of blank lines right before it. -/
structure SpacedLine where
  blanks : Nat
  line : List Char
  deriving DecidableEq, Repr

namespace SpacedLine

/-- A line with one more blank line before it. -/
def push (spaced : SpacedLine) : SpacedLine :=
  { spaced with blanks := spaced.blanks + 1 }

/-- A line without blanks at its end, behind no more blank lines than the limit. -/
def laidOut (spaced : SpacedLine) : SpacedLine where
  blanks := min spaced.blanks blankLimit
  line := Text.trimEnd spaced.line

/-- A line behind its blank lines. -/
def written (spaced : SpacedLine) : List (List Char) :=
  List.replicate spaced.blanks [] ++ [spaced.line]

end SpacedLine

/-- The lines that are not blank, each with the number of blank lines between it and the
line before that is not blank, or the start. -/
def spacedLines : List (List Char) → List SpacedLine
  | [] => []
  | line :: rest =>
      if isBlankLine line then (spacedLines rest).modifyHead SpacedLine.push
      else ⟨0, line⟩ :: spacedLines rest

example : spacedLines ["".toList, " ".toList, "a ".toList, "b".toList, "\t".toList] =
    [⟨2, "a ".toList⟩, ⟨0, "b".toList⟩] := by decide

theorem spacedLines_blanks (blank : ∀ line ∈ blanks, isBlankLine line = true) :
    spacedLines blanks = [] := by
  induction blanks with
  | nil => rfl
  | cons line blanks ih =>
      obtain ⟨here, there⟩ := List.forall_mem_cons.mp blank
      rw [spacedLines, if_pos here, ih there]
      rfl

theorem spacedLines_blanks_append (blank : ∀ line ∈ blanks, isBlankLine line = true)
    (solid : isBlankLine line = false) (rest : List (List Char)) :
    spacedLines (blanks ++ line :: rest) = ⟨blanks.length, line⟩ :: spacedLines rest := by
  induction blanks with
  | nil => simp [spacedLines, solid]
  | cons first blanks ih =>
      obtain ⟨here, there⟩ := List.forall_mem_cons.mp blank
      rw [List.cons_append, spacedLines, if_pos here, ih there]
      rfl

/-- Lines are blank lines, or blank lines and one that is not blank before other lines. -/
theorem lines_induction {motive : List (List Char) → Prop}
    (last : ∀ blanks, (∀ line ∈ blanks, isBlankLine line = true) → motive blanks)
    (block : ∀ blanks line rest, (∀ line ∈ blanks, isBlankLine line = true) →
      isBlankLine line = false → motive rest → motive (blanks ++ line :: rest))
    (lines : List (List Char)) : motive lines := by
  suffices behind : ∀ blanks, (∀ line ∈ blanks, isBlankLine line = true) →
      motive (blanks ++ lines) from behind [] nofun
  induction lines with
  | nil =>
      intro blanks blank
      rw [List.append_nil]
      exact last blanks blank
  | cons line lines ih =>
      intro blanks blank
      cases solid : isBlankLine line with
      | true =>
          rw [List.append_cons]
          apply ih
          exact List.forall_mem_append.mpr ⟨blank, List.forall_mem_singleton.mpr solid⟩
      | false => exact block blanks line lines blank solid (ih [] nofun)

/-- The lines are those that are not blank, in their order. -/
theorem map_line_spacedLines (lines : List (List Char)) :
    (spacedLines lines).map SpacedLine.line = lines.filter fun line => !isBlankLine line := by
  induction lines with
  | nil => rfl
  | cons line lines ih =>
      cases solid : isBlankLine line with
      | true =>
          rw [spacedLines, if_pos solid, List.filter_cons_of_neg (by simp [solid]), ← ih]
          cases spacedLines lines <;> rfl
      | false =>
          rw [spacedLines, if_neg (by simp [solid]), List.map_cons, ih,
            List.filter_cons_of_pos (by simp [solid])]

theorem isBlankLine_of_mem_spacedLines {spaced : SpacedLine}
    (member : spaced ∈ spacedLines lines) : isBlankLine spaced.line = false := by
  have kept := List.mem_map_of_mem (f := SpacedLine.line) member
  rw [map_line_spacedLines] at kept
  simpa using (List.mem_filter.mp kept).2

/-- Lines that are written behind their blank lines are found again. -/
theorem spacedLines_flatMap_written {all : List SpacedLine}
    (solid : ∀ spaced ∈ all, isBlankLine spaced.line = false) :
    spacedLines (all.flatMap SpacedLine.written) = all := by
  induction all with
  | nil => rfl
  | cons spaced all ih =>
      obtain ⟨here, there⟩ := List.forall_mem_cons.mp solid
      have empty : ∀ line ∈ List.replicate spaced.blanks ([] : List Char),
          isBlankLine line = true := by
        intro line member
        rw [List.eq_of_mem_replicate member]
        rfl
      rw [List.flatMap_cons, SpacedLine.written, List.append_assoc, List.singleton_append,
        spacedLines_blanks_append empty here, ih there, List.length_replicate]

/-! ## Trimmed lines -/

theorem trimEnd_eq_nil_iff : Text.trimEnd line = [] ↔ isBlankLine line = true :=
  List.rdropWhile_eq_nil_iff.trans List.all_eq_true.symm

theorem trimEnd_trimEnd (line : List Char) :
    Text.trimEnd (Text.trimEnd line) = Text.trimEnd line :=
  List.rdropWhile_idempotent _ line

theorem isBlankLine_trimEnd (line : List Char) :
    isBlankLine (Text.trimEnd line) = isBlankLine line := by
  rw [Bool.eq_iff_iff, ← trimEnd_eq_nil_iff, trimEnd_trimEnd, trimEnd_eq_nil_iff]

theorem SpacedLine.laidOut_laidOut (spaced : SpacedLine) :
    spaced.laidOut.laidOut = spaced.laidOut := by
  simp [laidOut, trimEnd_trimEnd]

theorem map_trimEnd_blanks (blank : ∀ line ∈ blanks, isBlankLine line = true) :
    blanks.map Text.trimEnd = List.replicate blanks.length [] := by
  rw [List.eq_replicate_iff]
  refine ⟨List.length_map _, ?_⟩
  rw [List.forall_mem_map]
  exact fun line member => trimEnd_eq_nil_iff.mpr (blank line member)

/-! ## Lines that are laid out -/

theorem limitBlanks_replicate (before count : Nat) :
    limitBlanks before (List.replicate count []) =
      List.replicate (min count (blankLimit - before)) [] := by
  induction count generalizing before with
  | zero => simp [limitBlanks]
  | succ count ih =>
      rw [List.replicate_succ, limitBlanks]
      split
      · rw [ih, ← List.replicate_succ]
        congr 1
        omega
      · rw [ih]
        congr 1
        omega

theorem dropLastBlanks_replicate (count : Nat) :
    dropLastBlanks (List.replicate count []) = [] := by
  simp [dropLastBlanks]

/-- The lines of a laid out text are those of the text that are not blank, each laid out
with the blank lines before it. -/
theorem tidyLines_eq (text : List Char) :
    tidyLines text =
      ((spacedLines (text.splitOn '\n')).map SpacedLine.laidOut).flatMap SpacedLine.written := by
  rw [tidyLines]
  induction text.splitOn '\n' using lines_induction with
  | last blanks blank =>
      rw [map_trimEnd_blanks blank, limitBlanks_replicate, dropLastBlanks_replicate,
        spacedLines_blanks blank]
      rfl
  | block blanks line rest blank solid ih =>
      have trimmed : Text.trimEnd line ≠ [] := by
        rw [ne_eq, trimEnd_eq_nil_iff, solid]
        decide
      rw [List.map_append, List.map_cons, map_trimEnd_blanks blank, limitBlanks_append trimmed,
        dropLastBlanks_append trimmed, limitBlanks_replicate, ih,
        spacedLines_blanks_append blank solid, List.map_cons, List.flatMap_cons]
      simp [SpacedLine.laidOut, SpacedLine.written]

theorem isBlankLine_of_mem_laidOut {spaced : SpacedLine}
    (member : spaced ∈ (spacedLines lines).map SpacedLine.laidOut) :
    isBlankLine spaced.line = false := by
  obtain ⟨before, found, rfl⟩ := List.mem_map.mp member
  exact (isBlankLine_trimEnd before.line).trans (isBlankLine_of_mem_spacedLines found)

theorem spacedLines_tidyLines (text : List Char) :
    spacedLines (tidyLines text) =
      (spacedLines (text.splitOn '\n')).map SpacedLine.laidOut := by
  rw [tidyLines_eq]
  exact spacedLines_flatMap_written fun _ => isBlankLine_of_mem_laidOut

/-- A line of a laid out text is empty or ends in no blank. -/
theorem solid_of_mem_tidyLines (member : line ∈ tidyLines text) :
    line = [] ∨ Solid line ∧ '\n' ∉ line := by
  rw [tidyLines_eq, List.mem_flatMap] at member
  obtain ⟨_, known, inside⟩ := member
  obtain ⟨spaced, found, rfl⟩ := List.mem_map.mp known
  rcases List.mem_append.mp inside with blank | here
  · exact .inl (List.eq_of_mem_replicate blank)
  · rw [List.mem_singleton.mp here]
    have kept := List.mem_map_of_mem (f := SpacedLine.line) found
    rw [map_line_spacedLines] at kept
    exact solid_of_mem_trimmedLines (List.mem_map_of_mem (List.mem_filter.mp kept).1)

/-! ## The text -/

theorem splitOn_tidyOf (text : List Char) :
    (tidyOf text).splitOn '\n' =
      (if tidyLines text = [] then [[]] else tidyLines text) ++ [[]] := by
  rw [tidyOf, List.splitOn_append_cons_self, List.splitOn_nil]
  apply congrArg (· ++ [[]])
  split
  · rename_i none
    rw [none]
    rfl
  · rename_i any
    apply List.splitOn_intercalate _ _ any
    intro line member feed
    rcases solid_of_mem_tidyLines member with rfl | ⟨_, noFeed⟩
    · cases feed
    · exact noFeed feed

theorem spacedLines_append_nil (lines : List (List Char)) :
    spacedLines (lines ++ [[]]) = spacedLines lines := by
  induction lines with
  | nil => rfl
  | cons line lines ih => rw [List.cons_append, spacedLines, ih, spacedLines]

theorem spacedLines_splitOn_tidyOf (text : List Char) :
    spacedLines ((tidyOf text).splitOn '\n') =
      (spacedLines (text.splitOn '\n')).map SpacedLine.laidOut := by
  rw [splitOn_tidyOf, spacedLines_append_nil, ← spacedLines_tidyLines]
  split
  · rename_i none
    rw [none]
    rfl
  · rfl

/-- Texts are laid out alike exactly if they have the same lines that are not blank, up to
blanks at their ends, and the same numbers of blank lines before them, up to the limit. -/
theorem tidyOf_eq_tidyOf_iff {first second : List Char} :
    tidyOf first = tidyOf second ↔
      (spacedLines (first.splitOn '\n')).map SpacedLine.laidOut =
        (spacedLines (second.splitOn '\n')).map SpacedLine.laidOut := by
  constructor
  · intro same
    rw [← spacedLines_splitOn_tidyOf, same, spacedLines_splitOn_tidyOf]
  · intro same
    rw [tidyOf, tidyOf, tidyLines_eq, tidyLines_eq, same]

theorem tidyOf_tidyOf (text : List Char) : tidyOf (tidyOf text) = tidyOf text := by
  rw [tidyOf_eq_tidyOf_iff, spacedLines_splitOn_tidyOf, List.map_map]
  exact List.map_congr_left fun spaced _ => spaced.laidOut_laidOut

theorem exists_last_tidyLines (any : tidyLines text ≠ []) :
    ∃ before last, tidyLines text = before ++ [last] ∧ isBlankLine last = false := by
  have lines := tidyLines_eq text
  rcases List.eq_nil_or_concat ((spacedLines (text.splitOn '\n')).map SpacedLine.laidOut) with
    none | ⟨front, final, split⟩
  · rw [none] at lines
    exact absurd lines any
  · have member : final ∈ (spacedLines (text.splitOn '\n')).map SpacedLine.laidOut := by
      rw [split, List.concat_eq_append]
      exact List.mem_append_right _ List.mem_cons_self
    refine ⟨front.flatMap SpacedLine.written ++ List.replicate final.blanks [], final.line, ?_,
      isBlankLine_of_mem_laidOut member⟩
    rw [lines, split, List.concat_eq_append, List.flatMap_append, List.flatMap_singleton,
      SpacedLine.written, List.append_assoc]

/-- A laid out text is a line feed alone, or its last line is not blank. -/
theorem tidyOf_eq_feed_or (text : List Char) :
    tidyOf text = ['\n'] ∨ ∃ before last,
      (tidyOf text).splitOn '\n' = before ++ [last, []] ∧ isBlankLine last = false := by
  by_cases none : tidyLines text = []
  · left
    rw [tidyOf, none]
    rfl
  · right
    obtain ⟨before, last, lines, solid⟩ := exists_last_tidyLines none
    refine ⟨before, last, ?_, solid⟩
    rw [splitOn_tidyOf, if_neg none, lines, List.append_assoc]
    rfl

theorem isBlank_getLast?_of_mem_splitOn_tidyOf (member : line ∈ (tidyOf text).splitOn '\n') :
    ∀ c ∈ line.getLast?, Text.isBlank c = false := by
  have known : line = [] ∨ line ∈ tidyLines text := by
    rw [splitOn_tidyOf, List.mem_append, List.mem_singleton] at member
    rcases member with inside | behind
    · split at inside
      · exact .inl (List.mem_singleton.mp inside)
      · exact .inr inside
    · exact .inl behind
  intro c last
  rcases known with rfl | inside
  · cases last
  · rcases solid_of_mem_tidyLines inside with rfl | ⟨solid, _⟩
    · cases last
    · rw [Solid, Option.mem_def.mp last] at solid
      exact Option.some.inj solid

/-- Laying out gives a normal form of a text. It ends in a line feed, and it is that alone or
has a last line that is not blank. None of its lines ends in a blank. Its lines that are not
blank are those of the text, in their order and without the blanks at their ends, and before
each of them are as many blank lines as in the text, but no more than two. -/
theorem tidy_normalizes (text : String) :
    tidy (tidy text) = tidy text ∧
      (∃ front, tidy text = front ++ "\n") ∧
      (tidy text = "\n" ∨ ∃ before last,
        (tidy text).toList.splitOn '\n' = before ++ [last, []] ∧ isBlankLine last = false) ∧
      (∀ line ∈ (tidy text).toList.splitOn '\n',
        ∀ c ∈ line.getLast?, Text.isBlank c = false) ∧
      ((tidy text).toList.splitOn '\n').filter (fun line => !isBlankLine line) =
        ((text.toList.splitOn '\n').filter fun line => !isBlankLine line).map Text.trimEnd ∧
      spacedLines ((tidy text).toList.splitOn '\n') =
        (spacedLines (text.toList.splitOn '\n')).map fun spaced =>
          ⟨min spaced.blanks 2, Text.trimEnd spaced.line⟩ := by
  have shown : (tidy text).toList = tidyOf text.toList := by rw [tidy, String.toList_ofList]
  have spaced := spacedLines_splitOn_tidyOf text.toList
  rw [shown]
  refine ⟨?_, ?_, ?_, ?_, ?_, spaced⟩
  · rw [tidy, shown, tidyOf_tidyOf, tidy]
  · refine ⟨String.ofList (['\n'].intercalate (tidyLines text.toList)), ?_⟩
    rw [← String.toList_inj, shown, String.toList_append, String.toList_ofList]
    rfl
  · rw [← String.toList_inj, shown]
    exact tidyOf_eq_feed_or text.toList
  · exact fun line member => isBlank_getLast?_of_mem_splitOn_tidyOf member
  · rw [← map_line_spacedLines, spaced, List.map_map, ← map_line_spacedLines, List.map_map]
    rfl

end LexiconCompiler.Source
