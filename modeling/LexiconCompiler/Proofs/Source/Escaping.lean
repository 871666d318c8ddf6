import LexiconCompiler.Source.Description
import LexiconCompiler.Source.Literal
import LexiconCompiler.Proofs.Json.Strings
import LexiconCompiler.Proofs.Name.Characters
import LexiconCompiler.Proofs.Source.Lexing

/-!
# Escaping

Free text stands in source text in three ways: as a string, in a docstring and after a
number sign. However the text is made, the string, the docstring or the comment ends where
it was meant to end, and only its quotes are left of it.
-/

namespace LexiconCompiler.Source

namespace Reading

variable {c : Char} {line : List Char} {lines : List (List Char)}

/-! ## Code -/

/-- Whether a character of code is kept as it is and leads to no other place. -/
def isPlain (c : Char) : Bool :=
  c ≠ '#' && c ≠ '"' && c ≠ '\'' && !endsLine c

theorem step_plain (plain : isPlain c = true) :
    step ⟨.code, line, lines⟩ c = ⟨.code, line ++ [c], lines⟩ := by
  simp only [isPlain, Bool.and_eq_true, decide_eq_true_eq, Bool.not_eq_true'] at plain
  obtain ⟨⟨⟨noMark, noDouble⟩, noSingle⟩, noEnd⟩ := plain
  change stepCode _ c = _
  rw [stepCode, Quote.ofChar?, if_neg noSingle, if_neg noDouble]
  simp only [if_neg noMark, noEnd]
  rfl

/-- A text that is kept as code. -/
def Plain (text : List Char) : Prop :=
  ∀ c ∈ text, isPlain c = true

instance (text : List Char) : Decidable (Plain text) :=
  decidable_of_iff (text.all isPlain = true) List.all_eq_true

theorem Plain.append {first second : List Char} (early : Plain first) (late : Plain second) :
    Plain (first ++ second) := by
  intro c member
  cases List.mem_append.mp member with
  | inl inside => exact early c inside
  | inr inside => exact late c inside

theorem run_plain {text : List Char} (plain : Plain text) :
    run ⟨.code, line, lines⟩ text = ⟨.code, line ++ text, lines⟩ := by
  induction text generalizing line with
  | nil => simp
  | cons c text ih =>
      rw [run_cons, step_plain (plain c List.mem_cons_self),
        ih fun other member => plain other (List.mem_cons_of_mem _ member)]
      simp

theorem step_newline : step ⟨.code, line, lines⟩ '\n' = ⟨.code, [], lines ++ keptLine line⟩ :=
  rfl

theorem isPlain_of_continuesIdentifier (continues : Name.continuesIdentifier c = true) :
    isPlain c = true := by
  by_cases ascii : c.toNat < 128
  · have checked := Name.forall_ascii (fun c => !Name.continuesIdentifier c || isPlain c)
      (by decide) ascii
    simpa [continues] using checked
  · have differs : ∀ other : Char, other.toNat < 128 → c ≠ other := by
      intro other small equal
      rw [equal] at ascii
      exact ascii small
    simp [isPlain, endsLine, differs]

/-- A name that can be declared is code as it stands. -/
theorem plain_of_isDeclarable {name : String} (declarable : Name.isDeclarable name = true) :
    Plain name.toList := by
  simp only [Name.isDeclarable, Bool.and_eq_true] at declarable
  have identifier := declarable.1
  rw [Name.isIdentifier] at identifier
  split at identifier
  · cases identifier
  · rename_i first rest shown
    rw [Bool.and_eq_true, List.all_eq_true] at identifier
    rw [shown]
    intro c member
    apply isPlain_of_continuesIdentifier
    rcases List.mem_cons.mp member with rfl | later
    · exact Name.continuesIdentifier_of_startsIdentifier identifier.1
    · exact identifier.2 c later

/-! ## Comments -/

/-- A text that stays on its line. -/
def Unbroken (text : List Char) : Prop :=
  ∀ c ∈ text, endsLine c = false

instance (text : List Char) : Decidable (Unbroken text) :=
  decidable_of_iff (text.all (fun c => !endsLine c) = true) <| by
    simp only [List.all_eq_true, Bool.not_eq_true', Unbroken]

theorem Unbroken.append {first second : List Char} (early : Unbroken first)
    (late : Unbroken second) : Unbroken (first ++ second) := by
  intro c member
  cases List.mem_append.mp member with
  | inl inside => exact early c inside
  | inr inside => exact late c inside

theorem Unbroken.intercalate {separator : List Char} (between : Unbroken separator)
    {texts : List (List Char)} (each : ∀ text ∈ texts, Unbroken text) :
    Unbroken (separator.intercalate texts) := by
  induction texts with
  | nil =>
      intro c member
      simp at member
  | cons text texts ih =>
      have later := ih fun other member => each other (List.mem_cons_of_mem _ member)
      have here := each text List.mem_cons_self
      cases texts with
      | nil =>
          rw [List.intercalate_singleton]
          exact here
      | cons next texts =>
          rw [List.intercalate_cons_cons]
          exact (here.append between).append later

theorem run_comment {text : List Char} (whole : Unbroken text) :
    run ⟨.comment, line, lines⟩ text = ⟨.comment, line, lines⟩ := by
  induction text with
  | nil => rfl
  | cons c text ih =>
      rw [run_cons, step_comment, whole c List.mem_cons_self]
      exact ih fun other member => whole other (List.mem_cons_of_mem _ member)

theorem step_comment_newline : step ⟨.comment, line, lines⟩ '\n' =
    ⟨.code, [], lines ++ keptLine line⟩ := rfl

theorem endsLine_of_isLineBreak (inside : Text.isLineBreak c = false) : endsLine c = false := by
  cases ends : endsLine c with
  | false => rfl
  | true =>
      simp only [endsLine, Bool.or_eq_true, decide_eq_true_eq] at ends
      rcases ends with rfl | rfl <;> cases inside

/-- A comment over several lines is nothing but comments. -/
theorem run_intercalate_commentBreak {texts : List (List Char)}
    (whole : ∀ text ∈ texts, Unbroken text) :
    run ⟨.comment, [], lines⟩ (commentBreak.intercalate texts ++ ['\n']) =
      ⟨.code, [], lines⟩ := by
  have ended : step ⟨.comment, [], lines⟩ '\n' = ⟨.code, [], lines⟩ := by
    rw [step_comment_newline]
    simp [keptLine]
  induction texts with
  | nil => exact ended
  | cons text rest ih =>
      have here : run ⟨.comment, [], lines⟩ text = ⟨.comment, [], lines⟩ :=
        run_comment (whole text List.mem_cons_self)
      have later := ih fun other member => whole other (List.mem_cons_of_mem _ member)
      cases rest with
      | nil =>
          rw [List.intercalate_singleton, run_append, here]
          exact ended
      | cons next rest =>
          rw [List.intercalate_cons_cons, List.append_assoc, List.append_assoc, run_append,
            here, commentBreak, run_append, run_cons, ended]
          exact later

/-- Every line of a comment stays on its line. -/
theorem unbroken_of_mem_brokenLines {text piece : List Char}
    (member : piece ∈ (Text.brokenLines text).map Text.trimEnd) : Unbroken piece := by
  intro c inside
  obtain ⟨whole, found, rfl⟩ := List.mem_map.mp member
  obtain ⟨blanks, _, split⟩ := Text.exists_trimEnd_append whole
  apply endsLine_of_isLineBreak
  apply Text.not_isLineBreak_of_mem_brokenLines found
  rw [split]
  exact List.mem_append_left _ inside

/-- The comment of any text leaves nothing behind. -/
theorem run_commentOf (text : List Char) :
    run ⟨.comment, [], lines⟩ (commentOf text ++ ['\n']) = ⟨.code, [], lines⟩ :=
  run_intercalate_commentBreak fun _ => unbroken_of_mem_brokenLines

/-! ## Strings -/

/-- Whether a character of a short string is neither a quote nor an escape. -/
def isOrdinary (c : Char) : Bool :=
  c ≠ '"' && c ≠ '\\' && !endsLine c

theorem step_ordinary (ordinary : isOrdinary c = true) :
    step ⟨.short .double, line, lines⟩ c = ⟨.short .double, line, lines⟩ := by
  simp only [isOrdinary, Bool.and_eq_true, decide_eq_true_eq, Bool.not_eq_true'] at ordinary
  obtain ⟨⟨noQuote, noEscape⟩, noEnd⟩ := ordinary
  change stepShort _ .double c = _
  rw [stepShort, if_neg (show c ≠ Quote.double.char from noQuote), if_neg noEscape, noEnd]
  rfl

theorem isOrdinary_of_mem_hexDigits {width number : Nat}
    (member : c ∈ Text.hexDigits width number) : isOrdinary c = true := by
  have table : ∀ digit < 16, isOrdinary (Nat.digitChar digit) = true := by decide
  induction width generalizing number with
  | zero => cases member
  | succ width ih =>
      rw [Text.hexDigits, List.mem_append, List.mem_singleton] at member
      cases member with
      | inl earlier => exact ih earlier
      | inr last =>
          rw [last]
          exact table _ (Nat.mod_lt _ (by decide))

/-- What is written for a character: ordinary characters, the first of which may be
escaped, and the same again. -/
inductive Written : List Char → Prop where
  | nil : Written []
  | ordinary {c : Char} {rest : List Char} (ordinary : isOrdinary c = true)
      (later : Written rest) : Written (c :: rest)
  | escaped {c : Char} {rest : List Char} (whole : endsLine c = false)
      (later : Written rest) : Written ('\\' :: c :: rest)

theorem Written.append {first second : List Char} (written : Written first)
    (later : Written second) : Written (first ++ second) := by
  induction written with
  | nil => exact later
  | ordinary ordinary _ ih => exact .ordinary ordinary ih
  | escaped whole _ ih => exact .escaped whole ih

theorem Written.of_ordinary {text : List Char} (ordinary : ∀ c ∈ text, isOrdinary c = true) :
    Written text := by
  induction text with
  | nil => exact .nil
  | cons c text ih =>
      exact .ordinary (ordinary c List.mem_cons_self)
        (ih fun other member => ordinary other (List.mem_cons_of_mem _ member))

theorem written_flatMap {α : Type} {items : List α} {image : α → List Char}
    (each : ∀ item ∈ items, Written (image item)) : Written (items.flatMap image) := by
  induction items with
  | nil => exact .nil
  | cons item items ih =>
      exact (each item List.mem_cons_self).append
        (ih fun other member => each other (List.mem_cons_of_mem _ member))

theorem written_writtenChar (c : Char) : Written (Json.writtenChar c) := by
  have letters : ∀ entry ∈ Json.shortEscapes, endsLine entry.2 = false := by
    simp [Json.shortEscapes, endsLine]
  rcases Json.writtenChar_cases c with ⟨letter, known, written⟩ | ⟨other, _, written⟩ | written
  · rw [written]
    exact .escaped (letters _ known) .nil
  · rw [written]
    simp only [Json.shortEscapes, List.forall_mem_cons] at other
    exact .ordinary (by simp [isOrdinary, endsLine, other]) .nil
  · rw [written]
    apply written_flatMap
    intro unit _
    apply Written.escaped (by decide)
    exact .of_ordinary fun digit member => isOrdinary_of_mem_hexDigits member

theorem written_flatMap_writtenChar (text : List Char) :
    Written (text.flatMap Json.writtenChar) :=
  written_flatMap fun c _ => written_writtenChar c

theorem Written.unbroken {text : List Char} (written : Written text) : Unbroken text := by
  induction written with
  | nil => exact (by decide)
  | @ordinary c rest ordinary _ ih =>
      have whole : endsLine c = false := by
        simp only [isOrdinary, Bool.and_eq_true, Bool.not_eq_true'] at ordinary
        exact ordinary.2
      intro other member
      cases member with
      | head => exact whole
      | tail _ inside => exact ih other inside
  | @escaped c rest whole _ ih =>
      intro other member
      cases member with
      | head => exact (by decide)
      | tail _ inside =>
          cases inside with
          | head => exact whole
          | tail _ inside => exact ih other inside

/-- A string stays on its line. -/
theorem unbroken_writeString (text : List Char) : Unbroken (Json.writeString text) := by
  have quote : Unbroken ['"'] := by decide
  exact (quote.append (written_flatMap_writtenChar text).unbroken).append quote

theorem Written.run {text : List Char} (written : Written text) :
    Reading.run ⟨.short .double, line, lines⟩ text = ⟨.short .double, line, lines⟩ := by
  induction written with
  | nil => rfl
  | ordinary ordinary _ ih =>
      rw [run_cons, step_ordinary ordinary]
      exact ih
  | escaped whole _ ih => exact ih

theorem Written.head_ne_quote {rest : List Char} (written : Written (c :: rest)) :
    c ≠ Quote.double.char := by
  cases written with
  | ordinary ordinary _ =>
      intro equal
      rw [equal] at ordinary
      cases ordinary
  | escaped _ _ => decide

theorem step_quoteOnce (noQuote : c ≠ Quote.double.char) :
    step ⟨.quoteOnce .double, line, lines⟩ c = step ⟨.short .double, line, lines⟩ c := by
  simp only [step, stepShort, if_neg noQuote]
  rfl

theorem step_quoteTwice (noQuote : c ≠ Quote.double.char) :
    step ⟨.quoteTwice .double, line, lines⟩ c = step ⟨.code, line, lines⟩ c := by
  simp only [step, if_neg noQuote]
  rfl

/-- Only the quotes are left of a string, if no quote follows it. -/
theorem run_writeString (text rest : List Char) (noQuote : c ≠ Quote.double.char) :
    run ⟨.code, line, lines⟩ (Json.writeString text ++ c :: rest) =
      run ⟨.code, line ++ ['"', '"'], lines⟩ (c :: rest) := by
  have opened : step ⟨.code, line, lines⟩ '"' = ⟨.quoteOnce .double, line ++ ['"'], lines⟩ :=
    rfl
  have quotes : line ++ ['"'] ++ ['"'] = line ++ ['"', '"'] := by simp
  have written := written_flatMap_writtenChar text
  rw [Json.writeString, List.cons_append, List.cons_append, run_cons, opened,
    List.append_assoc, run_append]
  -- an empty string is only told from three quotes by the character after it
  cases shown : text.flatMap Json.writtenChar with
  | nil =>
      have closed : step ⟨.quoteOnce .double, line ++ ['"'], lines⟩ '"' =
          ⟨.quoteTwice .double, line ++ ['"'] ++ ['"'], lines⟩ := rfl
      rw [run_nil, List.singleton_append, run_cons, closed, run_cons,
        step_quoteTwice noQuote, quotes, run_cons]
  | cons first others =>
      rw [shown] at written
      have closed : step ⟨.short .double, line ++ ['"'], lines⟩ '"' =
          ⟨.code, line ++ ['"'] ++ ['"'], lines⟩ := rfl
      rw [run_cons, step_quoteOnce written.head_ne_quote, ← run_cons, written.run,
        List.singleton_append, run_cons, closed, quotes]

theorem run_intercalate_writeString (line : List Char) (texts : List String)
    (rest : List Char) :
    run ⟨.code, line, lines⟩
        ([',', ' '].intercalate (texts.map fun text => Json.writeString text.toList) ++
          ')' :: rest) =
      run ⟨.code, line ++ [',', ' '].intercalate (texts.map fun _ => ['"', '"']), lines⟩
        (')' :: rest) := by
  induction texts generalizing line with
  | nil => simp
  | cons text texts ih =>
      cases texts with
      | nil =>
          simp only [List.map_cons, List.map_nil, List.intercalate_singleton]
          exact run_writeString text.toList rest (by decide)
      | cons next texts =>
          have between : run ⟨.code, line ++ ['"', '"'], lines⟩ [',', ' '] =
              ⟨.code, line ++ ['"', '"'] ++ [',', ' '], lines⟩ := run_plain (by decide)
          simp only [List.map_cons, List.intercalate_cons_cons, List.append_assoc] at ih ⊢
          rw [List.cons_append, run_writeString text.toList _ (by decide),
            ← List.cons_append, run_append, between, ih]
          simp

/-- Of a tuple of strings the tuple is left, with strings that are empty. -/
theorem run_tuple (texts : List String) :
    run ⟨.code, line, lines⟩ (Literal.tuple (texts.map .str)).render =
      ⟨.code, line ++ Literal.tupleOf (texts.map fun _ => ['"', '"']), lines⟩ := by
  have items : Literal.renderAll (texts.map .str) =
      texts.map fun text => Json.writeString text.toList := by
    simp [Literal.render, Function.comp_def]
  have opened : step ⟨.code, line, lines⟩ '(' = ⟨.code, line ++ ['('], lines⟩ := rfl
  have closed : ∀ shown, step ⟨.code, shown, lines⟩ ')' = ⟨.code, shown ++ [')'], lines⟩ :=
    fun _ => rfl
  rw [Literal.render, items]
  rcases texts with _ | ⟨text, _ | ⟨next, texts⟩⟩
  · exact run_plain (by decide)
  · simp only [List.map_cons, List.map_nil, Literal.tupleOf, List.cons_append]
    rw [run_cons, opened, run_writeString text.toList _ (by decide), run_plain (by decide)]
    simp
  · have shown := fun lines => @run_intercalate_writeString lines (line ++ ['('])
      (text :: next :: texts) []
    simp only [List.map_cons, Literal.tupleOf, List.cons_append] at shown ⊢
    rw [run_cons, opened, shown, run_cons, closed]
    simp

end Reading

end LexiconCompiler.Source
