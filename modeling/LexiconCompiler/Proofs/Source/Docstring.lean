import LexiconCompiler.Source.Description
import LexiconCompiler.Proofs.Source.Lexing

/-!
# Docstrings that close where they should

The escapes of a docstring keep three quotes in a row from standing inside it. The one
exception is a text that ends in a quote, whose last escape may be undone by the escapes
before; a text that ends in anything else is closed by the three quotes after it.
-/

namespace LexiconCompiler.Source

/-- A text as it stands in a docstring, but for a quote at its end. -/
def escaped (text : List Char) : List Char :=
  escapeTripleQuotes (escapeBackslashes text)

theorem escaped_triple (rest : List Char) : escaped ('"' :: '"' :: '"' :: rest) =
    ['\\', '"', '\\', '"', '\\', '"'] ++ escaped rest := rfl

theorem escaped_backslash (rest : List Char) :
    escaped ('\\' :: rest) = ['\\', '\\'] ++ escaped rest := by
  have doubled : escapeBackslashes ('\\' :: rest) =
      '\\' :: '\\' :: escapeBackslashes rest := rfl
  rw [escaped, doubled, escapeTripleQuotes, escapeTripleQuotes]
  · rfl
  · simp
  · simp

/-- A quote in a text with doubled backslashes stands in the text itself. -/
theorem quote_of_escapeBackslashes {text rest : List Char}
    (begins : escapeBackslashes text = '"' :: rest) :
    ∃ other, text = '"' :: other ∧ escapeBackslashes other = rest := by
  cases text with
  | nil => cases begins
  | cons c text =>
      rw [escapeBackslashes, List.flatMap_cons] at begins
      split at begins
      · cases begins
      · rename_i single
        rw [List.singleton_append, List.cons.injEq] at begins
        exact ⟨text, by rw [begins.1], begins.2⟩

theorem escaped_other {c : Char} {rest : List Char} (noEscape : c ≠ '\\')
    (noTriple : ∀ other, c = '"' → rest = '"' :: '"' :: other → False) :
    escaped (c :: rest) = c :: escaped rest := by
  have kept : escapeBackslashes (c :: rest) = c :: escapeBackslashes rest := by
    rw [escapeBackslashes, List.flatMap_cons, if_neg noEscape]
    rfl
  rw [escaped, kept, escapeTripleQuotes]
  · rfl
  · intro other equal begins
    obtain ⟨second, first, begins⟩ := quote_of_escapeBackslashes begins
    obtain ⟨third, next, _⟩ := quote_of_escapeBackslashes begins
    exact noTriple third equal (by rw [first, next])

/-- The cases of escaping, which takes three quotes, a backslash or another character at a
time. -/
theorem escaped_induction {motive : List Char → Prop} (nil : motive [])
    (triple : ∀ rest, motive rest → motive ('"' :: '"' :: '"' :: rest))
    (backslash : ∀ rest, motive rest → motive ('\\' :: rest))
    (other : ∀ c rest, c ≠ '\\' →
      (∀ later, c = '"' → rest = '"' :: '"' :: later → False) → motive rest →
      motive (c :: rest))
    (text : List Char) : motive text := by
  induction text using escapeTripleQuotes.induct with
  | case1 => exact nil
  | case2 rest ih => exact triple rest ih
  | case3 c rest noTriple ih =>
      by_cases escape : c = '\\'
      · rw [escape]
        exact backslash rest ih
      · exact other c rest escape noTriple ih

@[simp] theorem getLast?_escaped (text : List Char) :
    (escaped text).getLast? = text.getLast? := by
  induction text using escaped_induction with
  | nil => rfl
  | triple rest ih =>
      rw [escaped_triple]
      simp [List.getLast?_cons, ih]
  | backslash rest ih =>
      rw [escaped_backslash]
      simp [List.getLast?_cons, ih]
  | other c rest noEscape noTriple ih =>
      rw [escaped_other noEscape noTriple, List.getLast?_cons, List.getLast?_cons, ih]

theorem docstringOf_eq {text : List Char}
    (solid : (Text.trim text).getLast? ≠ some '"') :
    docstringOf text = escaped (Text.trim text) := by
  rw [docstringOf, ← escaped, escapeLastQuote, getLast?_escaped, if_neg solid]

/-- The count of quotes at the start of a text. -/
def leadingQuotes : List Char → Nat
  | [] => 0
  | c :: rest => if c = '"' then leadingQuotes rest + 1 else 0

theorem leadingQuotes_lt_two {rest : List Char}
    (noPair : ∀ later, rest = '"' :: '"' :: later → False) : leadingQuotes rest < 2 := by
  rcases rest with _ | ⟨first, _ | ⟨second, later⟩⟩
  · decide
  · simp only [leadingQuotes]
    split <;> decide
  · simp only [leadingQuotes]
    split
    · rename_i quote
      split
      · rename_i again
        exact absurd (by rw [quote, again]) (noPair later)
      · decide
    · decide

namespace Reading

variable {line : List Char} {lines : List (List Char)}

theorem step_long_quote {closing : Nat} (early : closing < 2) :
    step ⟨.long .double closing, line, lines⟩ '"' =
      ⟨.long .double (closing + 1), line, lines⟩ := by
  change stepLong _ .double closing '"' = _
  rw [stepLong, if_pos (show '"' = Quote.double.char from rfl), if_pos early]
  rfl

/-- The quotes that are left to be counted stand at the very end of a text. -/
def Pending (text : List Char) (closing left : Nat) : Prop :=
  left = 0 ∨ text.getLast? = some '"' ∨ text = [] ∧ left = closing

/-- What comes before the point from which quotes are counted makes no difference. -/
theorem Pending.append_left {rest : List Char} {left : Nat} (pending : Pending rest 0 left)
    (front : List Char) (closing : Nat) : Pending (front ++ rest) closing left := by
  rcases pending with zero | quote | ⟨_, zero⟩
  · exact .inl zero
  · exact .inr (.inl (by simp [List.getLast?_append, quote]))
  · exact .inl zero

/-- An escaped text does not end the string that it stands in, unless the quotes before it
make three with those at its start. Only quotes at its end are left to be counted. -/
theorem run_escaped (line : List Char) (lines : List (List Char)) (text : List Char)
    (closing : Nat) (fits : closing = 0 ∨ closing + leadingQuotes text < 3) :
    ∃ left, run ⟨.long .double closing, line, lines⟩ (escaped text) =
        ⟨.long .double left, line, lines⟩ ∧ Pending text closing left := by
  induction text using escaped_induction generalizing closing with
  | nil => exact ⟨closing, rfl, .inr (.inr ⟨rfl, rfl⟩)⟩
  | triple rest ih =>
      have none : closing = 0 := by
        simp only [leadingQuotes, if_true] at fits
        omega
      subst none
      obtain ⟨left, arrives, pending⟩ := ih 0 (.inl rfl)
      exact ⟨left, arrives, pending.append_left ['"', '"', '"'] 0⟩
  | backslash rest ih =>
      have passes : run ⟨.long .double closing, line, lines⟩ ['\\', '\\'] =
          ⟨.long .double 0, line, lines⟩ := rfl
      obtain ⟨left, arrives, pending⟩ := ih 0 (.inl rfl)
      refine ⟨left, ?_, pending.append_left ['\\'] closing⟩
      rw [escaped_backslash, run_append, passes, arrives]
  | other c rest noEscape noTriple ih =>
      by_cases quote : c = '"'
      · -- the count goes on, and the next two characters cannot both be quotes
        have few := leadingQuotes_lt_two fun later => noTriple later quote
        simp only [leadingQuotes, if_pos quote] at fits
        obtain ⟨left, arrives, pending⟩ := ih (closing + 1) (.inr (by omega))
        refine ⟨left, ?_, ?_⟩
        · rw [escaped_other noEscape noTriple, run_cons, quote,
            step_long_quote (by omega), arrives]
        · rcases pending with zero | last | ⟨rfl, _⟩
          · exact .inl zero
          · exact .inr (.inl (by simp [List.getLast?_cons, last]))
          · exact .inr (.inl (by rw [quote]; rfl))
      · obtain ⟨left, arrives, pending⟩ := ih 0 (.inl rfl)
        refine ⟨left, ?_, pending.append_left [c] closing⟩
        rw [escaped_other noEscape noTriple, run_cons, step_long quote noEscape, arrives]

/-- Only the quotes are left of the docstring of a text that does not end in a quote. -/
theorem run_docstringOf {text : List Char} (solid : (Text.trim text).getLast? ≠ some '"') :
    run ⟨.code, line, lines⟩ (['"', '"', '"'] ++ docstringOf text ++ ['"', '"', '"']) =
      ⟨.code, line ++ ['"', '"', '"', '"', '"', '"'], lines⟩ := by
  have opened : run ⟨.code, line, lines⟩ ['"', '"', '"'] =
      ⟨.long .double 0, line ++ ['"'] ++ ['"'] ++ ['"'], lines⟩ := rfl
  have closed : ∀ kept, run ⟨.long .double 0, kept, lines⟩ ['"', '"', '"'] =
      ⟨.code, kept ++ ['"', '"', '"'], lines⟩ := fun _ => rfl
  obtain ⟨left, arrives, pending⟩ := run_escaped (line ++ ['"'] ++ ['"'] ++ ['"']) lines
    (Text.trim text) 0 (.inl rfl)
  have none : left = 0 := by
    rcases pending with zero | quote | ⟨_, zero⟩
    · exact zero
    · exact absurd quote solid
    · exact zero
  rw [run_append, run_append, opened, docstringOf_eq solid, arrives, none, closed]
  simp

end Reading

end LexiconCompiler.Source
