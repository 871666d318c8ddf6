import LexiconCompiler.Text.Blank
import Mathlib.Data.List.Basic

/-!
# Parts of texts

What is left of a text when it is cut at a separator or trimmed.
-/

namespace LexiconCompiler

/-- A piece of a split text has the characters of the text but for the separator. -/
theorem mem_of_mem_splitOn {separator c : Char} {text piece : List Char}
    (member : piece ∈ text.splitOn separator) (inside : c ∈ piece) :
    c ∈ text ∧ c ≠ separator := by
  induction text generalizing piece with
  | nil =>
      rw [List.splitOn_nil, List.mem_singleton] at member
      rw [member] at inside
      cases inside
  | cons first rest ih =>
      rw [List.splitOn_cons_eq_if_modifyHead] at member
      split at member
      · rcases List.mem_cons.mp member with rfl | later
        · cases inside
        · exact (ih later inside).imp_left (List.mem_cons_of_mem first)
      · rename_i different
        cases pieces : rest.splitOn separator with
        | nil => exact absurd pieces (List.splitOn_ne_nil _ _)
        | cons head others =>
            rw [pieces] at member ih
            rcases List.mem_cons.mp member with rfl | later
            · rcases List.mem_cons.mp inside with rfl | within
              · exact ⟨List.mem_cons_self, by simpa using different⟩
              · exact (ih List.mem_cons_self within).imp_left (List.mem_cons_of_mem first)
            · exact (ih (List.mem_cons_of_mem _ later) inside).imp_left
                (List.mem_cons_of_mem first)

namespace Text

theorem trimStart_concat {c : Char} (solid : isBlank c = false) (text : List Char) :
    ∃ front, trimStart (text ++ [c]) = front ++ [c] := by
  induction text with
  | nil => exact ⟨[], by simp [trimStart, solid]⟩
  | cons first text ih =>
      cases blank : isBlank first with
      | true =>
          obtain ⟨front, kept⟩ := ih
          exact ⟨front, by simpa [trimStart, blank] using kept⟩
      | false => exact ⟨first :: text, by simp [trimStart, blank]⟩

/-- A text keeps its last character when it is trimmed, if that is not blank. -/
theorem getLast?_trim_concat {c : Char} (solid : isBlank c = false) (text : List Char) :
    (trim (text ++ [c])).getLast? = some c := by
  obtain ⟨front, kept⟩ := trimStart_concat solid text
  rw [trim, kept, trimEnd_concat, solid]
  simp

end Text

end LexiconCompiler
