import LexiconCompiler.Text.Ranges

/-!
# Lines of running text

Running text has more line breaks than the line feed. This module cuts a text at
all of them.
-/

namespace LexiconCompiler.Text

/-- The line breaks of running text: the line feed to the carriage return, the file,
group and record separators, next line, and the two Unicode separators of lines and
paragraphs. -/
def lineBreakRanges : Ranges :=
  [(0x0A, 0x0D), (0x1C, 0x1E), (0x85, 0x85), (0x2028, 0x2029)]

/-- Whether a character breaks a line of running text. -/
def isLineBreak (c : Char) : Bool :=
  lineBreakRanges.contains c

/-- The lines of running text. A carriage return and a line feed right after it are
one break, and a break at the very end begins no further line. -/
def brokenLines : List Char → List (List Char)
  | [] => []
  | '\r' :: '\n' :: rest => [] :: brokenLines rest
  | c :: rest =>
      if isLineBreak c then [] :: brokenLines rest
      else match brokenLines rest with
        | [] => [[c]]
        | line :: others => (c :: line) :: others

/-- No line of a broken text holds a line break. -/
theorem not_isLineBreak_of_mem_brokenLines {text line : List Char}
    (member : line ∈ brokenLines text) : ∀ c ∈ line, isLineBreak c = false := by
  fun_induction brokenLines text generalizing line with
  | case1 => simp at member
  | case2 rest ih =>
      rcases List.mem_cons.mp member with rfl | later
      · simp
      · exact ih later
  | case3 c rest _ _ ih =>
      rcases List.mem_cons.mp member with rfl | later
      · simp
      · exact ih later
  | case4 c rest _ plain cut =>
      simp only [List.mem_singleton] at member
      simp [member, plain]
  | case5 c rest _ plain first others cut ih =>
      rcases List.mem_cons.mp member with rfl | later
      · intro d within
        rcases List.mem_cons.mp within with rfl | inside
        · simpa using plain
        · exact ih (by simp [cut]) d inside
      · exact ih (by simp [cut, later])

end LexiconCompiler.Text
