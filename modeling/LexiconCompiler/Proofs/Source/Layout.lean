import LexiconCompiler.Source.Layout
import LexiconCompiler.Proofs.Source.Lexing
import Mathlib.Data.List.Induction

/-!
# Skeletons and layout

Laying a text out takes blanks from the ends of lines and whole blank lines away, also
inside strings and comments. None of this changes the skeleton of the text: what is taken
away is no code, and no string ends earlier or later for it.
-/

namespace LexiconCompiler.Source

namespace Reading

/-- Read a line and the line feed that ends it. -/
def readLine (reading : Reading) (line : List Char) : Reading :=
  (reading.run line).step '\n'

theorem ofChar?_of_isBlank {c : Char} (blank : Text.isBlank c = true) :
    Quote.ofChar? c = none := by
  have single : c ≠ '\'' := by
    intro equal
    rw [equal] at blank
    revert blank
    decide
  have double : c ≠ '"' := by
    intro equal
    rw [equal] at blank
    revert blank
    decide
  rw [Quote.ofChar?, if_neg single, if_neg double]

theorem ne_char_of_isBlank {c : Char} (blank : Text.isBlank c = true) (quote : Quote) :
    c ≠ quote.char := by
  intro equal
  rw [equal] at blank
  cases quote <;> revert blank <;> decide

theorem ne_of_isBlank {c other : Char} (blank : Text.isBlank c = true)
    (solid : Text.isBlank other = false) : c ≠ other := by
  intro equal
  rw [equal, solid] at blank
  cases blank

@[simp] theorem endLine_endLine (reading : Reading) :
    reading.endLine.endLine = reading.endLine := by
  simp [endLine, keptLine]

theorem stepCode_newline (reading : Reading) : reading.stepCode '\n' = reading.endLine := rfl

/-- A blank at the end of a line of code is taken away with the end of the line. -/
theorem stepCode_blank {c : Char} (blank : Text.isBlank c = true) (reading : Reading) :
    (reading.stepCode c).step '\n' = reading.endLine := by
  have noMark : c ≠ '#' := ne_of_isBlank blank (by decide)
  rw [stepCode, ofChar?_of_isBlank blank]
  dsimp only
  rw [if_neg noMark]
  split
  · exact endLine_endLine reading
  · simp only [step, keep, stepCode_newline, endLine, keptLine_concat_blank blank]

theorem stepShort_newline (reading : Reading) (quote : Quote) :
    (reading.stepShort quote '\n').place = .unclosed := by
  cases quote <;> rfl

/-- A blank in a short string stays in it, so the end of the line comes too early. -/
theorem stepShort_blank {c : Char} (blank : Text.isBlank c = true) (reading : Reading)
    (quote : Quote) : ((reading.stepShort quote c).step '\n').place = .unclosed := by
  have noEscape : c ≠ '\\' := ne_of_isBlank blank (by decide)
  rw [stepShort, if_neg (ne_char_of_isBlank blank quote), if_neg noEscape]
  split
  · rfl
  · exact stepShort_newline _ quote

/-- A blank before the end of a line makes no difference, unless a string is left unclosed. -/
theorem step_blank_step_newline {c : Char} (blank : Text.isBlank c = true)
    (reading : Reading) :
    ((reading.step c).step '\n').place = .unclosed ∨
      (reading.step c).step '\n' = reading.step '\n' := by
  have noQuote := ne_char_of_isBlank blank
  have noEscape : c ≠ '\\' := ne_of_isBlank blank (by decide)
  obtain ⟨place, line, lines⟩ := reading
  cases place with
  | code => exact .inr (stepCode_blank blank _)
  | comment =>
      right
      rw [step_comment]
      split
      · exact endLine_endLine _
      · rfl
  | quoteOnce quote =>
      left
      simp only [step, if_neg (noQuote quote)]
      exact stepShort_blank blank _ quote
  | quoteTwice quote =>
      right
      have noBreak : '\n' ≠ quote.char := ne_char_of_isBlank (by decide) quote
      simp only [step, if_neg (noQuote quote), if_neg noBreak]
      exact stepCode_blank blank _
  | short quote => exact .inl (stepShort_blank blank _ quote)
  | shortEscape quote => exact .inl (stepShort_newline _ quote)
  | long quote closing =>
      right
      have noBreak : '\n' ≠ quote.char := ne_char_of_isBlank (by decide) quote
      rw [step_long (noQuote quote) noEscape, step_long noBreak (by decide),
        step_long noBreak (by decide)]
  | longEscape quote =>
      right
      have noBreak : '\n' ≠ quote.char := ne_char_of_isBlank (by decide) quote
      exact step_long noBreak (by decide)
  | unclosed => exact .inl rfl

/-- The blanks at the end of a line make no difference. -/
theorem readLine_trimEnd {reading : Reading} {line : List Char}
    (closed : (reading.readLine line).place ≠ .unclosed) :
    reading.readLine (Text.trimEnd line) = reading.readLine line := by
  induction line using List.reverseRecOn with
  | nil => rfl
  | append_singleton line c ih =>
      rw [Text.trimEnd_concat]
      split
      · rename_i blank
        have split : reading.readLine (line ++ [c]) =
            ((reading.run line).step c).step '\n' := by
          rw [readLine, run_append]
          rfl
        rw [split] at closed ⊢
        rcases step_blank_step_newline blank (reading.run line) with unclosed | same
        · exact absurd unclosed closed
        · rw [same] at closed ⊢
          exact ih closed
      · rfl

/-- A blank line after the end of a line makes no difference. -/
theorem readLine_nil_readLine {reading : Reading} {line : List Char}
    (closed : ((reading.readLine line).readLine []).place ≠ .unclosed) :
    (reading.readLine line).readLine [] = reading.readLine line := by
  rcases step_blank_step_newline (c := '\n') (by decide) (reading.run line) with
    unclosed | same
  · exact absurd unclosed closed
  · exact same

/-! ## Lines -/

/-- Read lines, each with the line feed that ends it. -/
def readLines (reading : Reading) (lines : List (List Char)) : Reading :=
  lines.foldl readLine reading

@[simp] theorem readLines_cons (reading : Reading) (line : List Char)
    (lines : List (List Char)) :
    reading.readLines (line :: lines) = (reading.readLine line).readLines lines := rfl

theorem run_intercalate (reading : Reading) (lines : List (List Char)) (any : lines ≠ []) :
    reading.run (['\n'].intercalate lines ++ ['\n']) = reading.readLines lines := by
  induction lines generalizing reading with
  | nil => exact absurd rfl any
  | cons line rest ih =>
      cases rest with
      | nil =>
          rw [List.intercalate_singleton, run_append]
          rfl
      | cons next rest =>
          have step : ['\n'].intercalate (line :: next :: rest) ++ ['\n'] =
              line ++ '\n' :: (['\n'].intercalate (next :: rest) ++ ['\n']) := by
            simp [List.intercalate]
          rw [step, run_append, run_cons, ih _ (List.cons_ne_nil _ _)]
          rfl

theorem closed_of_readLines {reading : Reading} {lines : List (List Char)}
    (closed : (reading.readLines lines).place ≠ .unclosed) : reading.place ≠ .unclosed := by
  induction lines generalizing reading with
  | nil => exact closed
  | cons line lines ih =>
      have later : ((reading.run line).run ['\n']).place ≠ .unclosed := ih closed
      exact closed_of_run (closed_of_run later)

theorem readLines_map_trimEnd {reading : Reading} {lines : List (List Char)}
    (closed : (reading.readLines lines).place ≠ .unclosed) :
    reading.readLines (lines.map Text.trimEnd) = reading.readLines lines := by
  induction lines generalizing reading with
  | nil => rfl
  | cons line lines ih =>
      rw [readLines_cons] at closed
      rw [List.map_cons, readLines_cons, readLines_cons,
        readLine_trimEnd (closed_of_readLines closed)]
      exact ih closed

end Reading

/-- The lines at the end that are dropped are blank. -/
theorem exists_dropLastBlanks_append (lines : List (List Char)) :
    ∃ count, lines = dropLastBlanks lines ++ List.replicate count [] := by
  refine ⟨(lines.reverse.takeWhile List.isEmpty).length, ?_⟩
  have empty : lines.reverse.takeWhile List.isEmpty =
      List.replicate (lines.reverse.takeWhile List.isEmpty).length [] := by
    refine List.eq_replicate_iff.mpr ⟨rfl, ?_⟩
    intro line member
    exact List.isEmpty_iff.mp (List.all_eq_true.mp List.all_takeWhile line member)
  rw [dropLastBlanks, ← List.reverse_replicate, ← empty, ← List.reverse_append,
    List.takeWhile_append_dropWhile, List.reverse_reverse]

/-- Lines from which some blank lines are taken away. -/
inductive Thinned : List (List Char) → List (List Char) → Prop where
  | nil : Thinned [] []
  | keep {line : List Char} {lines thinner : List (List Char)} (rest : Thinned lines thinner) :
      Thinned (line :: lines) (line :: thinner)
  | drop {lines thinner : List (List Char)} (rest : Thinned lines thinner) :
      Thinned ([] :: lines) thinner

namespace Thinned

theorem refl (lines : List (List Char)) : Thinned lines lines := by
  induction lines with
  | nil => exact .nil
  | cons line lines ih => exact .keep ih

theorem append_left {lines thinner : List (List Char)} (thinned : Thinned lines thinner)
    (before : List (List Char)) : Thinned (before ++ lines) (before ++ thinner) := by
  induction before with
  | nil => exact thinned
  | cons line before ih => exact .keep ih

theorem of_limitBlanks (blanks : Nat) (lines : List (List Char)) :
    Thinned lines (limitBlanks blanks lines) := by
  fun_induction limitBlanks blanks lines with
  | case1 => exact .nil
  | case2 blanks rest below ih => exact .keep ih
  | case3 blanks rest above ih => exact .drop ih
  | case4 blanks line rest solid ih => exact .keep ih

theorem blanks {lines : List (List Char)} (all : ∀ line ∈ lines, line = []) :
    Thinned lines [] := by
  induction lines with
  | nil => exact .nil
  | cons line lines ih =>
      rw [all line List.mem_cons_self]
      exact .drop (ih fun other member => all other (List.mem_cons_of_mem _ member))

theorem of_dropLastBlanks (lines : List (List Char)) :
    Thinned lines (dropLastBlanks lines) := by
  obtain ⟨count, split⟩ := exists_dropLastBlanks_append lines
  have empty : ∀ line ∈ List.replicate count ([] : List Char), line = [] :=
    fun _ => List.eq_of_mem_replicate
  have thinned := (blanks empty).append_left (dropLastBlanks lines)
  rwa [← split, List.append_nil] at thinned

/-- The blank lines that are taken away make no difference after the end of a line. -/
theorem readLines {lines thinner : List (List Char)} (thinned : Thinned lines thinner)
    {reading : Reading} (settled : (reading.readLine []).place ≠ .unclosed →
      reading.readLine [] = reading)
    (closed : (reading.readLines lines).place ≠ .unclosed) :
    reading.readLines thinner = reading.readLines lines := by
  induction thinned generalizing reading with
  | nil => rfl
  | keep rest ih => exact ih Reading.readLine_nil_readLine closed
  | drop rest ih =>
      rw [Reading.readLines_cons] at closed ⊢
      have same := settled (Reading.closed_of_readLines closed)
      rw [same] at closed ⊢
      exact ih settled closed

end Thinned

theorem skeletonOf_eq_some {text : List Char} {lines : List (List Char)} :
    skeletonOf text = some lines ↔
      (Reading.start.run (text ++ ['\n'])).place = .code ∧
        (Reading.start.run (text ++ ['\n'])).lines = lines := by
  simp only [skeletonOf]
  split
  · rename_i inCode
    rw [Option.some.injEq]
    exact ⟨fun same => ⟨inCode, same⟩, And.right⟩
  · rename_i elsewhere
    constructor
    · intro equal
      cases equal
    · intro ⟨inCode, _⟩
      exact absurd inCode elsewhere

namespace Reading

/-- The lines that are laid out are read as those before. -/
theorem readLines_tidyLines {text : List Char}
    (closed : (start.run (text ++ ['\n'])).place ≠ .unclosed) :
    start.readLines (tidyLines text) = start.run (text ++ ['\n']) := by
  have cut : start.run (text ++ ['\n']) = start.readLines (text.splitOn '\n') := by
    rw [← run_intercalate start _ (List.splitOn_ne_nil _ _), List.intercalate_splitOn]
  rw [cut] at closed ⊢
  have trimmed := readLines_map_trimEnd closed
  rw [← trimmed] at closed
  have settled : start.readLine [] = start := rfl
  have limited := (Thinned.of_limitBlanks 0 _).readLines (fun _ => settled) closed
  rw [← limited] at closed
  have dropped := (Thinned.of_dropLastBlanks _).readLines (fun _ => settled) closed
  exact dropped.trans (limited.trans trimmed)

/-- One more line feed after the end of a line of code makes no difference. -/
theorem step_newline_of_code {reading : Reading} (inCode : (reading.step '\n').place = .code) :
    (reading.step '\n').step '\n' = reading.step '\n' := by
  rcases step_blank_step_newline (c := '\n') (by decide) reading with unclosed | same
  · rw [step, inCode] at unclosed
    cases unclosed
  · exact same

end Reading

/-- A text that is laid out has the skeleton of the text before. -/
theorem skeletonOf_tidyOf {text : List Char} {lines : List (List Char)}
    (read : skeletonOf text = some lines) : skeletonOf (tidyOf text) = some lines := by
  rw [skeletonOf_eq_some] at read ⊢
  have closed : (Reading.start.run (text ++ ['\n'])).place ≠ .unclosed := by
    rw [read.1]
    decide
  have laidOut := Reading.readLines_tidyLines closed
  have same : Reading.start.run (tidyOf text ++ ['\n']) =
      Reading.start.run (text ++ ['\n']) := by
    by_cases none : tidyLines text = []
    · rw [none] at laidOut
      rw [← laidOut, tidyOf, none]
      rfl
    · rw [tidyOf, Reading.run_append, Reading.run_intercalate _ _ none, laidOut]
      rw [Reading.run_append] at read ⊢
      exact Reading.step_newline_of_code read.1
  rw [same]
  exact read

end LexiconCompiler.Source
