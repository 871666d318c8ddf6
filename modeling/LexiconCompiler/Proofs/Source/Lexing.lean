import LexiconCompiler.Text.Blank

/-!
# Lexing

Source text is read character by character, by the rules of Python: outside strings a
number sign begins a comment, lines end at a line feed or a carriage return, and a string
begins with one quote or with three of them. What is left once the comments, the contents
of strings, the blanks at the ends of lines and the blank lines are taken away is the
skeleton of the text.
-/

namespace LexiconCompiler.Source

/-- The quotes that begin a string. -/
inductive Quote where
  | single
  | double
  deriving DecidableEq, Repr

/-- The character of a quote. -/
def Quote.char : Quote → Char
  | single => '\''
  | double => '"'

/-- The quote that a character is, if it is one. -/
def Quote.ofChar? (c : Char) : Option Quote :=
  if c = '\'' then some .single else if c = '"' then some .double else none

/-- Whether a character ends a line of source text. -/
def endsLine (c : Char) : Bool :=
  c = '\n' || c = '\r'

/-- Where in a source text the next character stands. -/
inductive Place where
  | code
  | comment
  /-- After a quote, which begins a short string unless it is one of three. -/
  | quoteOnce (quote : Quote)
  /-- After two quotes, which are an empty string unless a third one follows. -/
  | quoteTwice (quote : Quote)
  | short (quote : Quote)
  | shortEscape (quote : Quote)
  /-- In a string that three quotes end, of which some stand right before. -/
  | long (quote : Quote) (closing : Nat)
  | longEscape (quote : Quote)
  /-- A short string was not ended on its line. -/
  | unclosed
  deriving DecidableEq, Repr

/-- What has been read of a source text: the place that was reached, the code of the line
so far, and the lines before it. -/
structure Reading where
  place : Place
  line : List Char
  lines : List (List Char)
  deriving DecidableEq, Repr

namespace Reading

/-- Before the first character. -/
def start : Reading := ⟨.code, [], []⟩

/-- Keep characters of the line and go on elsewhere. -/
def keep (reading : Reading) (text : List Char) (place : Place) : Reading :=
  { reading with place, line := reading.line ++ text }

/-- Keep nothing and go on elsewhere. -/
def skip (reading : Reading) (place : Place) : Reading :=
  { reading with place }

/-- The line that is left of a line of code, if it is not blank. -/
def keptLine (line : List Char) : List (List Char) :=
  if Text.trimEnd line = [] then [] else [Text.trimEnd line]

/-- End the line and go on with code. -/
def endLine (reading : Reading) : Reading :=
  ⟨.code, [], reading.lines ++ keptLine reading.line⟩

/-- Read a character outside strings and comments. -/
def stepCode (reading : Reading) (c : Char) : Reading :=
  match Quote.ofChar? c with
  | some quote => reading.keep [c] (.quoteOnce quote)
  | none =>
      if c = '#' then reading.skip .comment
      else if endsLine c then reading.endLine
      else reading.keep [c] .code

/-- Read a character in a string that one quote ends. -/
def stepShort (reading : Reading) (quote : Quote) (c : Char) : Reading :=
  if c = quote.char then reading.keep [c] .code
  else if c = '\\' then reading.skip (.shortEscape quote)
  else if endsLine c then reading.skip .unclosed
  else reading.skip (.short quote)

/-- Read a character in a string that three quotes end. -/
def stepLong (reading : Reading) (quote : Quote) (closing : Nat) (c : Char) : Reading :=
  if c = quote.char then
    if closing < 2 then reading.skip (.long quote (closing + 1))
    else reading.keep [c, c, c] .code
  else if c = '\\' then reading.skip (.longEscape quote)
  else reading.skip (.long quote 0)

/-- Read a character. -/
def step (reading : Reading) (c : Char) : Reading :=
  match reading.place with
  | .code => reading.stepCode c
  | .comment => if endsLine c then reading.endLine else reading
  | .quoteOnce quote =>
      if c = quote.char then reading.keep [c] (.quoteTwice quote)
      else reading.stepShort quote c
  | .quoteTwice quote =>
      if c = quote.char then reading.keep [c] (.long quote 0) else reading.stepCode c
  | .short quote => reading.stepShort quote c
  | .shortEscape quote => reading.skip (.short quote)
  | .long quote closing => reading.stepLong quote closing c
  | .longEscape quote => reading.skip (.long quote 0)
  | .unclosed => reading

/-- Read a text. -/
def run (reading : Reading) (text : List Char) : Reading :=
  text.foldl step reading

end Reading

/-- The lines that are left of a text, if all its strings are closed. The end of the text
ends a line. -/
def skeletonOf (text : List Char) : Option (List (List Char)) :=
  let reading := Reading.start.run (text ++ ['\n'])
  if reading.place = .code then some reading.lines else none

/-- The lines that are left of a source text, if all its strings are closed. -/
def skeleton (source : String) : Option (List String) :=
  (skeletonOf source.toList).map fun lines => lines.map String.ofList

example : skeleton "x = \"a # b\"  # c\n\n'''d\n\"\"\"\\'''e''' # f" =
    some ["x = \"\"", "''''''"] := by
  decide

/-- A text that does not end in a blank. -/
def Solid (text : List Char) : Prop :=
  text.getLast?.map Text.isBlank = some false

instance (text : List Char) : Decidable (Solid text) :=
  inferInstanceAs (Decidable (_ = _))

theorem Solid.append {second : List Char} (solid : Solid second) (first : List Char) :
    Solid (first ++ second) := by
  obtain ⟨last, ends, notBlank⟩ := Option.map_eq_some_iff.mp solid
  rw [Solid, List.getLast?_append, ends, Option.some_or, Option.map_some, notBlank]

namespace Reading

variable {quote : Quote} {c : Char} {line : List Char} {lines : List (List Char)}

theorem step_comment : step ⟨.comment, line, lines⟩ c =
    if endsLine c then endLine ⟨.comment, line, lines⟩ else ⟨.comment, line, lines⟩ := rfl

theorem step_long {closing : Nat} (noQuote : c ≠ quote.char) (noEscape : c ≠ '\\') :
    step ⟨.long quote closing, line, lines⟩ c = ⟨.long quote 0, line, lines⟩ := by
  change stepLong _ quote closing c = _
  rw [stepLong, if_neg noQuote, if_neg noEscape]
  rfl

@[simp] theorem keptLine_nil : keptLine [] = [] := rfl

theorem keptLine_concat_blank (blank : Text.isBlank c = true) (line : List Char) :
    keptLine (line ++ [c]) = keptLine line := by
  simp only [keptLine, Text.trimEnd_concat, blank, if_true]

/-- A line whose last character is not blank is left as it is. -/
theorem keptLine_of_solid (solid : Solid line) : keptLine line = [line] := by
  obtain ⟨last, ends, notBlank⟩ := Option.map_eq_some_iff.mp solid
  obtain ⟨front, rfl⟩ := List.getLast?_eq_some_iff.mp ends
  simp [keptLine, Text.trimEnd_concat, notBlank]

@[simp] theorem run_nil (reading : Reading) : reading.run [] = reading := rfl

@[simp] theorem run_cons (reading : Reading) (c : Char) (text : List Char) :
    reading.run (c :: text) = (reading.step c).run text := rfl

theorem run_append (reading : Reading) (first second : List Char) :
    reading.run (first ++ second) = (reading.run first).run second :=
  List.foldl_append

/-- A string that was not ended on its line is never left. -/
theorem run_of_unclosed {reading : Reading} (unclosed : reading.place = .unclosed)
    (text : List Char) : reading.run text = reading := by
  induction text with
  | nil => rfl
  | cons c text ih =>
      have stays : reading.step c = reading := by
        rw [step, unclosed]
      rw [run_cons, stays, ih]

/-- What is read to the end of a text was not left unclosed on the way. -/
theorem closed_of_run {reading : Reading} {text : List Char}
    (closed : (reading.run text).place ≠ .unclosed) : reading.place ≠ .unclosed := by
  intro unclosed
  rw [run_of_unclosed unclosed] at closed
  exact closed unclosed

end Reading

end LexiconCompiler.Source
