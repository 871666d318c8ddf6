import LexiconCompiler.Proofs.Source.Docstring
import LexiconCompiler.Proofs.Source.Strings

/-!
# The value of a docstring

The docstring of a text is read as the text without the blanks around it, unless the text
ends in quotes that are escaped three at a time. Then the backslash of the last quote is
escaped once more, and the quote itself closes the docstring too early.
-/

namespace LexiconCompiler.Source

variable {front rest text : List Char}

/-! ## Escaped texts -/

/-- The count of quotes at the end of a text. -/
def lastQuotes (text : List Char) : Nat :=
  (text.reverse.takeWhile fun c => c = '"').length

theorem exists_eq_append_lastQuotes (text : List Char) :
    ∃ front, text = front ++ List.replicate (lastQuotes text) '"' ∧
      front.getLast? ≠ some '"' := by
  refine ⟨(text.reverse.dropWhile fun c => c = '"').reverse, ?_, ?_⟩
  · have quotes : (text.reverse.takeWhile fun c => c = '"') =
        List.replicate (lastQuotes text) '"' := by
      refine List.eq_replicate_iff.mpr ⟨rfl, ?_⟩
      intro c member
      simpa using List.all_eq_true.mp List.all_takeWhile c member
    rw [← List.reverse_replicate, ← quotes, ← List.reverse_append,
      List.takeWhile_append_dropWhile, List.reverse_reverse]
  · intro quote
    rw [List.getLast?_reverse] at quote
    have stops := List.head?_dropWhile_not (fun c => c = '"') text.reverse
    rw [quote] at stops
    simp at stops

/-- A quote at the start of an escaped text stands in the text itself. -/
theorem quote_of_escaped (begins : escaped text = '"' :: rest) :
    ∃ other, text = '"' :: other ∧ escaped other = rest := by
  induction text using escaped_induction with
  | nil => cases begins
  | triple other _ =>
      rw [escaped_triple] at begins
      cases begins
  | backslash other _ =>
      rw [escaped_backslash] at begins
      cases begins
  | other c other noEscape noTriple _ =>
      rw [escaped_other noEscape noTriple, List.cons.injEq] at begins
      exact ⟨other, by rw [begins.1], begins.2⟩

theorem getLast?_ne_of_append {c : Char} (front : List Char)
    (solid : (front ++ rest).getLast? ≠ some c) : rest.getLast? ≠ some c := by
  intro last
  rw [List.getLast?_append, last] at solid
  exact solid rfl

/-- A text that does not end in a quote is escaped by itself, whatever comes after it. -/
theorem escaped_append (solid : front.getLast? ≠ some '"') (rest : List Char) :
    escaped (front ++ rest) = escaped front ++ escaped rest := by
  induction front using escaped_induction with
  | nil => rfl
  | triple other ih =>
      have here : escaped (['"', '"', '"'] ++ (other ++ rest)) =
          ['\\', '"', '\\', '"', '\\', '"'] ++ escaped (other ++ rest) := escaped_triple _
      have alone : escaped (['"', '"', '"'] ++ other) =
          ['\\', '"', '\\', '"', '\\', '"'] ++ escaped other := escaped_triple _
      rw [ih (getLast?_ne_of_append ['"', '"', '"'] solid), ← List.append_assoc,
        ← List.append_assoc, ← alone] at here
      exact here
  | backslash other ih =>
      rw [List.cons_append, escaped_backslash, escaped_backslash,
        ih (getLast?_ne_of_append ['\\'] solid), List.append_assoc]
  | other c other noEscape noTriple ih =>
      -- three quotes across the seam would leave a quote at the end of the front
      have separate : ∀ later, c = '"' → other ++ rest = '"' :: '"' :: later → False := by
        intro later quote begins
        rcases other with _ | ⟨first, _ | ⟨second, other⟩⟩
        · exact solid (congrArg some quote)
        · exact solid (congrArg some (List.cons.inj begins).1)
        · obtain ⟨same, begins⟩ := List.cons.inj begins
          obtain ⟨again, _⟩ := List.cons.inj begins
          exact noTriple other quote (by rw [same, again])
      rw [List.cons_append, escaped_other noEscape separate, escaped_other noEscape noTriple,
        ih (getLast?_ne_of_append [c] solid), List.cons_append]

/-- Quotes that come in threes are escaped by themselves, whatever comes after them. -/
theorem escaped_append_of_threes (solid : front.getLast? ≠ some '"') (count : Nat)
    (rest : List Char) :
    escaped (front ++ List.replicate (3 * count) '"' ++ rest) =
      escaped (front ++ List.replicate (3 * count) '"') ++ escaped rest := by
  have threes : escaped (List.replicate (3 * count) '"' ++ rest) =
      escaped (List.replicate (3 * count) '"') ++ escaped rest := by
    induction count with
    | zero => rfl
    | succ count ih =>
        have more : List.replicate (3 * (count + 1)) '"' =
            '"' :: '"' :: '"' :: List.replicate (3 * count) '"' := rfl
        rw [more, List.cons_append, List.cons_append, List.cons_append, escaped_triple, ih,
          escaped_triple, List.append_assoc]
  rw [List.append_assoc, escaped_append solid, escaped_append solid, threes, List.append_assoc]

/-- A docstring is not closed where it should be if its text ends in quotes that are all
escaped three at a time. -/
def ClosesEarly (text : List Char) : Prop :=
  0 < lastQuotes text ∧ 3 ∣ lastQuotes text

instance (text : List Char) : Decidable (ClosesEarly text) :=
  inferInstanceAs (Decidable (_ ∧ _))

/-- How a text may end: not in a quote, in a quote that is not escaped, or in three quotes
that are. -/
inductive QuoteEnding (text : List Char) : Prop where
  | solid (solid : text.getLast? ≠ some '"') (closes : ¬ ClosesEarly text)
  | left {front : List Char} (split : text = front ++ ['"'])
      (left : escaped text = escaped front ++ ['"']) (closes : ¬ ClosesEarly text)
  | escaped {front : List Char} (all : Source.escaped text =
        Source.escaped front ++ ['\\', '"', '\\', '"', '\\', '"'])
      (closes : ClosesEarly text)

theorem quoteEnding (text : List Char) : QuoteEnding text := by
  obtain ⟨front, split, solid⟩ := exists_eq_append_lastQuotes text
  obtain ⟨groups, rest, few, count⟩ :
      ∃ groups rest, rest < 3 ∧ lastQuotes text = 3 * groups + rest :=
    ⟨_, _, Nat.mod_lt _ (by decide), (Nat.div_add_mod _ 3).symm⟩
  have threes := escaped_append_of_threes solid groups
  rw [count, ← List.replicate_append_replicate, ← List.append_assoc] at split
  rcases rest with _ | _ | _ | more
  · rw [List.replicate_zero, List.append_nil] at split
    cases groups with
    | zero =>
        rw [List.replicate_zero, List.append_nil] at split
        refine .solid (split ▸ solid) ?_
        rintro ⟨some, _⟩
        omega
    | succ groups =>
        rw [Nat.mul_add, ← List.replicate_append_replicate, ← List.append_assoc] at split
        have all := escaped_append_of_threes solid groups ['"', '"', '"']
        exact .escaped ((congrArg escaped split).trans all) ⟨by omega, by omega⟩
  · refine .left split ((congrArg escaped split).trans (threes ['"'])) ?_
    rintro ⟨_, whole⟩
    omega
  · have apart : text = front ++ List.replicate (3 * groups) '"' ++ ['"'] ++ ['"'] := by
      rw [List.append_assoc _ ['"']]
      exact split
    have left : escaped text =
        escaped (front ++ List.replicate (3 * groups) '"' ++ ['"']) ++ ['"'] := by
      rw [threes ['"'], List.append_assoc]
      exact (congrArg escaped split).trans (threes ['"', '"'])
    refine .left apart left ?_
    rintro ⟨_, whole⟩
    omega
  · omega

/-! ## Reading escaped texts -/

theorem gives_escaped (text : List Char) : Gives (escaped text) (codePoints text) := by
  induction text using escaped_induction with
  | nil => exact .nil
  | triple other ih =>
      have quotes : Gives ['\\', '"', '\\', '"', '\\', '"'] (codePoints ['"', '"', '"']) := by
        have quote : Gives ['\\', '"'] (codePoints ['"']) := gives_escape (by decide)
        exact quote.append (quote.append quote)
      exact quotes.append ih
  | backslash other ih =>
      rw [escaped_backslash]
      have backslash : Gives ['\\', '\\'] (codePoints ['\\']) := gives_escape (by decide)
      exact backslash.append ih
  | other c other noEscape noTriple ih =>
      rw [escaped_other noEscape noTriple]
      exact (gives_singleton noEscape).append ih

/-- A quote after a quote comes from the text that is escaped there, unless that is empty and
the quote stands behind it. -/
theorem quote_of_escaped_append {behind : List Char}
    (apart : ('"' :: text).getLast? ≠ some '"' ∨ rest.head? ≠ some '"')
    (begins : escaped text ++ rest = '"' :: behind) :
    ∃ other, text = '"' :: other ∧ escaped other ++ rest = behind := by
  cases shown : escaped text with
  | nil =>
      have empty : text = [] := by
        rw [← List.getLast?_eq_none_iff, ← getLast?_escaped, shown]
        rfl
      rw [shown, List.nil_append] at begins
      rw [empty, begins] at apart
      exact absurd rfl (apart.elim id id)
  | cons first others =>
      rw [shown, List.cons_append] at begins
      obtain ⟨rfl, follows⟩ := List.cons.inj begins
      obtain ⟨other, split, rfl⟩ := quote_of_escaped shown
      exact ⟨other, split, follows⟩

/-- An escaped text is passed over, unless quotes at its end and behind it make three. -/
theorem passed_escaped (apart : text.getLast? ≠ some '"' ∨ rest.head? ≠ some '"') :
    Passed longQuotes (escaped text) rest := by
  have later : ∀ front {other : List Char}, (front ++ other).getLast? ≠ some '"' ∨
      rest.head? ≠ some '"' → other.getLast? ≠ some '"' ∨ rest.head? ≠ some '"' :=
    fun front _ apart => apart.imp_left (getLast?_ne_of_append front)
  induction text using escaped_induction with
  | nil => exact .nil _ _
  | triple other ih =>
      have quote := passed_escape longQuotes '"'
      rw [escaped_triple]
      exact .append (.append (quote _) (.append (quote _) (quote _)))
        (ih (later ['"', '"', '"'] apart))
  | backslash other ih =>
      rw [escaped_backslash]
      exact .append (passed_escape _ _ _) (ih (later ['\\'] apart))
  | other c other noEscape noTriple ih =>
      rw [escaped_other noEscape noTriple]
      -- three bare quotes would be three quotes of the text, which are escaped
      have opens : ¬ longQuotes <+: c :: (escaped other ++ rest) := by
        rintro ⟨behind, three⟩
        obtain ⟨rfl, two⟩ := List.cons.inj three
        have begins : escaped other ++ rest = '"' :: '"' :: behind := two.symm
        obtain ⟨next, rfl, follows⟩ := quote_of_escaped_append apart begins
        obtain ⟨last, rfl, _⟩ := quote_of_escaped_append (later ['"'] apart) follows
        exact noTriple last rfl rfl
      exact (passed_singleton noEscape opens).append (ih (later [c] apart))

/-! ## Docstrings -/

/-- A text that stands between long quotes. -/
def longQuoted (contents : List Char) : List Char :=
  longQuotes ++ contents ++ longQuotes

/-- Contents that are passed over are those of the long string. -/
theorem stringAt?_longQuoted {contents : List Char}
    (passed : Passed longQuotes contents longQuotes) :
    stringAt? (longQuoted contents) = some (contents, []) := by
  have opened : stringAt? (longQuoted contents) =
      quoted? longQuotes (contents ++ longQuotes) := rfl
  have closed : quoted? longQuotes (longQuotes ++ []) = some ([], []) :=
    quoted?_closing (by decide) _ _
  rw [List.append_nil] at closed
  rw [opened, passed, closed, Option.map_some, List.append_nil]

/-- A long string is read back if its contents are passed over and give the text. -/
theorem reads_of_gives {contents : List Char} (passed : Passed longQuotes contents longQuotes)
    (gives : Gives contents (codePoints text)) :
    stringAt? (longQuoted contents) = some (contents, []) ∧
      unescape contents = some (codePoints text) :=
  ⟨stringAt?_longQuoted passed, gives.unescape_eq⟩

theorem codePoints_append (first second : List Char) :
    codePoints (first ++ second) = codePoints first ++ codePoints second :=
  List.map_append

/-- Without a quote at the end nothing is escaped once more. -/
theorem reads_of_solid (solid : (Text.trim text).getLast? ≠ some '"') :
    stringAt? (longQuoted (docstringOf text)) = some (docstringOf text, []) ∧
      unescape (docstringOf text) = some (codePoints (Text.trim text)) := by
  rw [docstringOf_eq solid]
  exact reads_of_gives (passed_escaped (.inl solid)) (gives_escaped _)

/-- A quote at the end that is left by the escapes before is escaped by itself. -/
theorem reads_of_left (trimmed : Text.trim text = front ++ ['"'])
    (left : escaped (Text.trim text) = escaped front ++ ['"']) :
    stringAt? (longQuoted (docstringOf text)) = some (docstringOf text, []) ∧
      unescape (docstringOf text) = some (codePoints (Text.trim text)) := by
  have shown : docstringOf text = escaped front ++ ['\\', '"'] := by
    rw [docstringOf, ← escaped, left, escapeLastQuote, if_pos (by simp),
      List.dropLast_concat]
  have quote : Gives ['\\', '"'] (codePoints ['"']) := gives_escape (by decide)
  rw [shown, trimmed]
  refine reads_of_gives (.append (passed_escaped (.inr (by decide))) (passed_escape _ _ _)) ?_
  rw [codePoints_append]
  exact (gives_escaped front).append quote

/-- A quote at the end that is escaped already loses its escape and closes the docstring. -/
theorem reads_of_escaped (all : escaped (Text.trim text) =
      escaped front ++ ['\\', '"', '\\', '"', '\\', '"']) :
    ∃ contents, stringAt? (longQuoted (docstringOf text)) = some (contents, ['"']) := by
  have shown : docstringOf text =
      escaped front ++ ['\\', '"', '\\', '"', '\\', '\\', '"'] := by
    have dropped : (escaped front ++ ['\\', '"', '\\', '"', '\\', '"']).dropLast =
        escaped front ++ ['\\', '"', '\\', '"', '\\'] :=
      List.dropLast_append_of_ne_nil (by decide)
    rw [docstringOf, ← escaped, all, escapeLastQuote, if_pos (by simp), dropped]
    simp
  have opened : stringAt? (longQuoted (docstringOf text)) =
      quoted? longQuotes (docstringOf text ++ longQuotes) := rfl
  have passed : Passed longQuotes (escaped front)
      (['\\', '"', '\\', '"', '\\', '\\', '"'] ++ longQuotes) :=
    passed_escaped (.inr (by decide))
  have closed : quoted? longQuotes (['\\', '"', '\\', '"', '\\', '\\', '"'] ++ longQuotes) =
      some (['\\', '"', '\\', '"', '\\', '\\'], ['"']) := by
    decide
  refine ⟨escaped front ++ ['\\', '"', '\\', '"', '\\', '\\'], ?_⟩
  rw [opened, shown, List.append_assoc, passed, closed, Option.map_some]

/-- The docstring of a text is closed by the three quotes behind it, and gives the text
without the blanks around it, unless the text ends in quotes that are all escaped three at a
time. Then one quote is left over. -/
theorem docstring_reads_iff (text : String) :
    ∃ contents left, stringAt? (longQuoted (docstring text).toList) = some (contents, left) ∧
      (left = [] ∧ unescape contents = some (codePoints (Text.trim text.toList)) ↔
        ¬ ClosesEarly (Text.trim text.toList)) ∧
      (left = ['"'] ↔ ClosesEarly (Text.trim text.toList)) := by
  rw [docstring, String.toList_ofList]
  have closed : ∀ {contents}, ¬ ClosesEarly (Text.trim text.toList) →
      stringAt? (longQuoted (docstringOf text.toList)) = some (contents, []) ∧
        unescape contents = some (codePoints (Text.trim text.toList)) →
      ∃ contents left,
        stringAt? (longQuoted (docstringOf text.toList)) = some (contents, left) ∧
          (left = [] ∧ unescape contents = some (codePoints (Text.trim text.toList)) ↔
            ¬ ClosesEarly (Text.trim text.toList)) ∧
          (left = ['"'] ↔ ClosesEarly (Text.trim text.toList)) := by
    intro contents closes ⟨read, gives⟩
    exact ⟨contents, [], read, iff_of_true ⟨rfl, gives⟩ closes, iff_of_false (by decide) closes⟩
  cases quoteEnding (Text.trim text.toList) with
  | solid solid closes => exact closed closes (reads_of_solid solid)
  | left split left closes => exact closed closes (reads_of_left split left)
  | escaped all closes =>
      obtain ⟨contents, read⟩ := reads_of_escaped all
      refine ⟨contents, ['"'], read, iff_of_false ?_ (not_not_intro closes), iff_of_true rfl closes⟩
      rintro ⟨none, _⟩
      cases none

/-- Three quotes alone: the docstring is closed by the last of them. -/
theorem docstring_of_quotes_closes_early :
    stringAt? (longQuoted (docstring "\"\"\"").toList) = some ("\\\"\\\"\\\\".toList, ['"']) ∧
      ¬ ∃ contents, stringAt? (longQuoted (docstring "\"\"\"").toList) = some (contents, []) ∧
        unescape contents = some (codePoints (Text.trim "\"\"\"".toList)) := by
  have read : stringAt? (longQuoted (docstring "\"\"\"").toList) =
      some ("\\\"\\\"\\\\".toList, ['"']) := by
    decide
  refine ⟨read, ?_⟩
  rintro ⟨contents, closed, _⟩
  cases read.symm.trans closed

end LexiconCompiler.Source
