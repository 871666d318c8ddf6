import LexiconCompiler.Source.Statement
import LexiconCompiler.Proofs.Source.Layout

/-!
# Lines that are laid out

A line that does not end in a blank is laid out as it is. It parts the lines before it from
those behind it: both are laid out by themselves, whatever stands on the other side.
-/

namespace LexiconCompiler.Source

variable {line text rest : List Char}

theorem Solid.ne_nil (solid : Solid line) : line ≠ [] := by
  rintro rfl
  cases solid

theorem Solid.trimEnd_eq (solid : Solid line) : Text.trimEnd line = line := by
  obtain ⟨last, ends, notBlank⟩ := Option.map_eq_some_iff.mp solid
  obtain ⟨front, rfl⟩ := List.getLast?_eq_some_iff.mp ends
  rw [Text.trimEnd_concat, notBlank]
  rfl

theorem limitBlanks_append (any : line ≠ []) (blanks : Nat) (front lines : List (List Char)) :
    limitBlanks blanks (front ++ line :: lines) =
      limitBlanks blanks front ++ line :: limitBlanks 0 lines := by
  induction front generalizing blanks with
  | nil =>
      cases line with
      | nil => exact absurd rfl any
      | cons c line => rfl
  | cons first front ih =>
      cases first with
      | nil =>
          simp only [List.cons_append, limitBlanks]
          split
          · rw [ih, List.cons_append]
          · rw [ih]
      | cons c first =>
          simp only [List.cons_append, limitBlanks]
          rw [ih]

theorem dropLastBlanks_append (any : line ≠ []) (front lines : List (List Char)) :
    dropLastBlanks (front ++ line :: lines) = front ++ line :: dropLastBlanks lines := by
  have stands : ([line] ++ front.reverse).dropWhile List.isEmpty = [line] ++ front.reverse := by
    rw [List.singleton_append, List.dropWhile_cons_of_neg (by simpa using any)]
  rw [dropLastBlanks, dropLastBlanks, List.reverse_append, List.reverse_cons,
    List.append_assoc, List.dropWhile_append, stands]
  split
  · rename_i none
    rw [List.isEmpty_iff.mp none]
    simp
  · simp

theorem intercalate_eq_flatMap {lines : List (List Char)} (any : lines ≠ []) :
    ['\n'].intercalate lines ++ ['\n'] = lines.flatMap ended := by
  induction lines with
  | nil => exact absurd rfl any
  | cons line lines ih =>
      cases lines with
      | nil => simp [ended]
      | cons next lines =>
          rw [List.flatMap_cons, ← ih (List.cons_ne_nil _ _), ended]
          simp [List.intercalate]

/-- A line that does not end in a blank is laid out as it is, between what stands before it
and what stands behind it. -/
theorem tidyOf_of_splitOn (solid : Solid line) {front : List (List Char)}
    (cut : text.splitOn '\n' = front ++ line :: rest.splitOn '\n') :
    tidyOf text = (limitBlanks 0 (front.map Text.trimEnd)).flatMap ended ++ ended line ++
      (tidyLines rest).flatMap ended := by
  have lines : tidyLines text =
      limitBlanks 0 (front.map Text.trimEnd) ++ line :: tidyLines rest := by
    rw [tidyLines, cut, List.map_append, List.map_cons, solid.trimEnd_eq,
      limitBlanks_append solid.ne_nil, dropLastBlanks_append solid.ne_nil]
    rfl
  rw [tidyOf, lines, intercalate_eq_flatMap (by simp), List.flatMap_append,
    List.flatMap_cons, List.append_assoc]

/-- What stands behind the first line of a text has no part in how that is laid out. -/
theorem tidyOf_ended_append (solid : Solid line) (unbroken : '\n' ∉ line) (rest : List Char) :
    tidyOf (ended line ++ rest) = ended line ++ (tidyLines rest).flatMap ended := by
  have cut : (ended line ++ rest).splitOn '\n' = [] ++ line :: rest.splitOn '\n' := by
    rw [ended, List.append_assoc, List.singleton_append, List.splitOn_append_cons_self,
      List.splitOn_eq_singleton unbroken]
    rfl
  rw [tidyOf_of_splitOn solid cut]
  rfl

/-! ## Whole lines -/

/-- A text of whole lines, the last of which is ended, too. -/
def Whole (text : List Char) : Prop :=
  ∃ lines : List (List Char), text = lines.flatMap ended ∧
    ∀ rest, (text ++ rest).splitOn '\n' = lines ++ rest.splitOn '\n'

namespace Whole

theorem nil : Whole [] := ⟨[], rfl, fun _ => rfl⟩

theorem ended (line : List Char) : Whole (ended line) := by
  refine ⟨line.splitOn '\n', ?_, ?_⟩
  · rw [← intercalate_eq_flatMap (List.splitOn_ne_nil _ _), List.intercalate_splitOn]
    rfl
  · intro rest
    rw [Source.ended, List.append_assoc, List.singleton_append, List.splitOn_append_cons_self]

theorem append {first second : List Char} (early : Whole first) (late : Whole second) :
    Whole (first ++ second) := by
  obtain ⟨lines, shown, cut⟩ := early
  obtain ⟨others, also, recut⟩ := late
  refine ⟨lines ++ others, ?_, ?_⟩
  · rw [shown, also, List.flatMap_append]
  · intro rest
    rw [List.append_assoc, cut, recut, List.append_assoc]

theorem flatMap {α : Type} {items : List α} {image : α → List Char}
    (each : ∀ item ∈ items, Whole (image item)) : Whole (items.flatMap image) := by
  induction items with
  | nil => exact nil
  | cons item items ih =>
      exact (each item List.mem_cons_self).append
        (ih fun other member => each other (List.mem_cons_of_mem _ member))

theorem render (statement : Statement) : Whole statement.render := by
  cases statement with
  | blank => exact ended _
  | comment text => exact ended _
  | importName source name => exact ended _
  | assign name value => exact ended _
  | dataclass name body =>
      exact ((ended _).append (ended _)).append (flatMap fun line _ => ended _)

end Whole

theorem Reading.run_flatMap_ended (reading : Reading) (lines : List (List Char)) :
    reading.run (lines.flatMap ended) = reading.readLines lines := by
  induction lines generalizing reading with
  | nil => rfl
  | cons line lines ih =>
      rw [List.flatMap_cons, run_append, ih, ended, run_append]
      rfl

/-- A line that does not end in a blank is laid out as it is, behind whole lines that are
read as those before it. -/
theorem exists_tidyOf_eq {before : List Char} (whole : Whole before) (solid : Solid line)
    (unbroken : '\n' ∉ line) (after : List Char) :
    ∃ front, tidyOf (before ++ ended line ++ after) =
        front ++ ended line ++ (tidyLines after).flatMap ended ∧ Whole front ∧
      ((Reading.start.run before).place ≠ .unclosed →
        Reading.start.run front = Reading.start.run before) := by
  obtain ⟨lines, shown, cut⟩ := whole
  have parted : (before ++ ended line ++ after).splitOn '\n' =
      lines ++ line :: after.splitOn '\n' := by
    rw [List.append_assoc, cut, ended, List.append_assoc, List.singleton_append,
      List.splitOn_append_cons_self, List.splitOn_eq_singleton unbroken]
    rfl
  refine ⟨_, tidyOf_of_splitOn solid parted, .flatMap fun line _ => .ended line, ?_⟩
  intro closed
  rw [shown, Reading.run_flatMap_ended] at closed ⊢
  rw [Reading.run_flatMap_ended]
  -- blanks at the ends of lines leave the reading as it is, and so do blank lines that are dropped
  have trimmed := Reading.readLines_map_trimEnd closed
  rw [← trimmed] at closed ⊢
  exact (Thinned.of_limitBlanks 0 _).readLines (fun _ => rfl) closed

end LexiconCompiler.Source
