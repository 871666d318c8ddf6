import LexiconCompiler.Proofs.Source.Contents
import LexiconCompiler.Proofs.Source.DocstringValue
import LexiconCompiler.Proofs.Source.Skeleton

/-!
# The strings of statements

Each statement of a module has strings of its own and leads from code back to code: a
constant has those of its value, a class has its docstring, and comments have none. The
strings of statements after one another come after one another.
-/

namespace LexiconCompiler

open Source
open Source.Reading (Plain Unbroken Written)

namespace Source

/-- From code a text leads to code, and its strings have some contents. -/
def HasStrings (text : List Char) (contents : List (List Char)) : Prop :=
  ∀ before, Gathering.run ⟨.code, [], before⟩ text = ⟨.code, [], before ++ contents⟩

namespace Gathering

variable {c : Char} {content : List Char} {contents : List (List Char)}

theorem run_plain {text : List Char} (plain : Plain text) :
    run ⟨.code, content, contents⟩ text = ⟨.code, content, contents⟩ := by
  induction text with
  | nil => rfl
  | cons c text ih =>
      have leads : Place.code.next c = .code :=
        congrArg Reading.place (Reading.step_plain (plain c List.mem_cons_self))
      have stays : step ⟨.code, content, contents⟩ c = ⟨.code, content, contents⟩ :=
        congrArg (move _) leads
      rw [run_cons, stays]
      exact ih fun other member => plain other (List.mem_cons_of_mem _ member)

theorem run_comment {text : List Char} (whole : Unbroken text) :
    run ⟨.comment, content, contents⟩ text = ⟨.comment, content, contents⟩ := by
  induction text with
  | nil => rfl
  | cons c text ih =>
      have leads : Place.comment.next c = .comment := by
        rw [Place.next, Reading.step_comment, whole c List.mem_cons_self]
        rfl
      have stays : step ⟨.comment, content, contents⟩ c = ⟨.comment, content, contents⟩ :=
        congrArg (move _) leads
      rw [run_cons, stays]
      exact ih fun other member => whole other (List.mem_cons_of_mem _ member)

/-- A comment over several lines leads back to code, and has no strings. -/
theorem run_intercalate_commentBreak {texts : List (List Char)}
    (whole : ∀ text ∈ texts, Unbroken text) :
    run ⟨.comment, [], contents⟩ (commentBreak.intercalate texts ++ ['\n']) =
      ⟨.code, [], contents⟩ := by
  induction texts with
  | nil => rfl
  | cons text rest ih =>
      have here : run ⟨.comment, [], contents⟩ text = ⟨.comment, [], contents⟩ :=
        run_comment (whole text List.mem_cons_self)
      have later := ih fun other member => whole other (List.mem_cons_of_mem _ member)
      cases rest with
      | nil =>
          rw [List.intercalate_singleton, run_append, here]
          rfl
      | cons next rest =>
          have breaks : run ⟨.comment, [], contents⟩ commentBreak = ⟨.comment, [], contents⟩ :=
            rfl
          rw [List.intercalate_cons_cons, List.append_assoc, List.append_assoc, run_append,
            here, run_append, breaks]
          exact later

theorem run_written {text : List Char} (written : Written text) (content : List Char) :
    run ⟨.short .double, content, contents⟩ text =
      ⟨.short .double, content ++ text, contents⟩ := by
  induction written generalizing content with
  | nil => rw [List.append_nil, run_nil]
  | @ordinary c rest ordinary _ ih =>
      have noQuote : c ≠ Quote.double.char := (Written.ordinary ordinary .nil).head_ne_quote
      have leads : (Place.short .double).next c = .short .double :=
        congrArg Reading.place (Reading.step_ordinary ordinary)
      have goes : step ⟨.short .double, content, contents⟩ c =
          ⟨.short .double, content ++ [c], contents⟩ := by
        simp only [step, if_neg noQuote, leads]
        rfl
      rw [run_cons, goes, ih, List.append_assoc, List.singleton_append]
  | @escaped c rest _ _ ih =>
      have goes : run ⟨.short .double, content, contents⟩ ['\\', c] =
          ⟨.short .double, content ++ ['\\'] ++ [c], contents⟩ := rfl
      have split : '\\' :: c :: rest = ['\\', c] ++ rest := rfl
      rw [split, run_append, goes, ih]
      simp

theorem step_quoteOnce {quote : Quote} (noQuote : c ≠ quote.char) :
    step ⟨.quoteOnce quote, content, contents⟩ c = step ⟨.short quote, [], contents⟩ c := by
  simp only [step, if_neg noQuote, Place.next_quoteOnce noQuote]
  rfl

theorem step_quoteTwice {quote : Quote} (noQuote : c ≠ quote.char) :
    step ⟨.quoteTwice quote, content, contents⟩ c =
      step ⟨.code, [], contents ++ [[]]⟩ c := by
  simp only [step, if_neg noQuote, Place.next_quoteTwice noQuote]
  rfl

end Gathering

namespace HasStrings

open Gathering

variable {early late text : List Char}

theorem nil : HasStrings [] [] := by
  intro before
  rw [List.append_nil, run_nil]

theorem append {first second : List (List Char)} (left : HasStrings early first)
    (right : HasStrings late second) : HasStrings (early ++ late) (first ++ second) := by
  intro before
  rw [run_append, left, right, List.append_assoc]

theorem flatMap {α : Type} {items : List α} {text : α → List Char}
    {contents : α → List (List Char)}
    (each : ∀ item ∈ items, HasStrings (text item) (contents item)) :
    HasStrings (items.flatMap text) (items.flatMap contents) := by
  induction items with
  | nil => exact nil
  | cons item items ih =>
      exact (each item List.mem_cons_self).append
        (ih fun other member => each other (List.mem_cons_of_mem _ member))

theorem plain (plain : Plain text) : HasStrings text [] := by
  intro before
  rw [run_plain plain, List.append_nil]

theorem feed : HasStrings ['\n'] [] := by
  intro before
  rw [List.append_nil]
  rfl

theorem line (plain : Plain text) : HasStrings (ended text) [] :=
  append (HasStrings.plain plain) feed

theorem ended {contents : List (List Char)} (has : HasStrings text contents) :
    HasStrings (ended text) contents := by
  have whole := has.append feed
  rwa [List.append_nil] at whole

/-- A plain line has no strings, and neither has the comment after it. -/
theorem remarked {remark : List Char} (plain : Plain text) (whole : Unbroken remark) :
    HasStrings (Source.ended (text ++ ("  #".toList ++ remark))) [] := by
  intro before
  have opened : run ⟨.code, [], before⟩ "  #".toList = ⟨.comment, [], before⟩ := rfl
  rw [Source.ended, List.append_assoc, List.append_assoc, run_append, run_plain plain,
    run_append, opened, run_append, run_comment whole, List.append_nil]
  rfl

/-- A comment has no strings. -/
theorem comment {texts : List (List Char)} (whole : ∀ text ∈ texts, Unbroken text) :
    HasStrings (Source.ended ("# ".toList ++ commentBreak.intercalate texts)) [] := by
  intro before
  have opened : run ⟨.code, [], before⟩ "# ".toList = ⟨.comment, [], before⟩ := rfl
  rw [Source.ended, List.append_assoc, run_append, opened, run_intercalate_commentBreak whole,
    List.append_nil]

theorem commentLine (whole : Unbroken text) :
    HasStrings (Source.ended ("# ".toList ++ text)) [] := by
  have has : HasStrings (Source.ended ("# ".toList ++ commentBreak.intercalate [text])) [] :=
    comment fun other member => List.mem_singleton.mp member ▸ whole
  rwa [List.intercalate_singleton] at has

end HasStrings

theorem HasStrings.stringsOf {text : List Char} {contents : List (List Char)}
    (has : HasStrings text contents) : stringsOf text = some contents := by
  have whole := has.append HasStrings.feed []
  rw [List.append_nil, List.nil_append] at whole
  rw [stringsOf_eq_some, Gathering.start, whole]
  exact ⟨rfl, rfl⟩

/-! ## Strings -/

/-- What stands between the quotes of a string that is written. -/
def written (text : String) : List Char :=
  text.toList.flatMap Json.writtenChar

variable {c : Char} {rest : List Char} {contents : List (List Char)}

open Gathering in
/-- A string before a text that does not begin with a quote. -/
theorem hasStrings_writeString (text : String) (noQuote : c ≠ Quote.double.char)
    (has : HasStrings (c :: rest) contents) :
    HasStrings (Json.writeString text.toList ++ c :: rest) (written text :: contents) := by
  intro before
  have opened : step ⟨.code, [], before⟩ '"' = ⟨.quoteOnce .double, [], before⟩ := rfl
  have behind := has (before ++ [written text])
  have all : Written (written text) := Reading.written_flatMap_writtenChar text.toList
  rw [List.append_assoc, List.singleton_append] at behind
  rw [← behind, Json.writeString, List.cons_append, List.cons_append, run_cons, opened,
    List.append_assoc, run_append, ← written]
  -- an empty string is only told from three quotes by the character after it
  cases shown : written text with
  | nil =>
      have closed : step ⟨.quoteOnce .double, [], before⟩ '"' =
          ⟨.quoteTwice .double, [], before⟩ := rfl
      rw [run_nil, List.singleton_append, run_cons, closed, run_cons, step_quoteTwice noQuote,
        run_cons]
  | cons first others =>
      rw [shown] at all
      have closed : ∀ content, step ⟨.short .double, content, before⟩ '"' =
          ⟨.code, [], before ++ [content]⟩ := fun _ => rfl
      rw [run_cons, step_quoteOnce all.head_ne_quote, ← run_cons, run_written all,
        List.singleton_append, run_cons, closed, List.nil_append]

theorem hasStrings_intercalate_writeString (texts : List String) :
    HasStrings ([',', ' '].intercalate (texts.map fun text => Json.writeString text.toList) ++
      [')']) (texts.map written) := by
  have closed : HasStrings [')'] [] := .plain (by decide)
  have comma : HasStrings [',', ' '] [] := .plain (by decide)
  induction texts with
  | nil => exact closed
  | cons text texts ih =>
      cases texts with
      | nil =>
          rw [List.map_singleton, List.intercalate_singleton]
          exact hasStrings_writeString text (by decide) closed
      | cons next texts =>
          have whole := hasStrings_writeString text (by decide) (comma.append ih)
          simpa [List.intercalate_cons_cons] using whole

theorem hasStrings_tuple (texts : List String) :
    HasStrings (Literal.tuple (texts.map .str)).render (texts.map written) := by
  have items : Literal.renderAll (texts.map .str) =
      texts.map fun text => Json.writeString text.toList := by
    simp [Literal.render, Function.comp_def]
  have opened : HasStrings ['('] [] := .plain (by decide)
  rw [Literal.render, items]
  rcases texts with _ | ⟨text, _ | ⟨next, texts⟩⟩
  · exact .plain (by decide)
  · have closed : HasStrings [',', ')'] [] := .plain (by decide)
    exact opened.append (hasStrings_writeString text (by decide) closed)
  · exact opened.append (hasStrings_intercalate_writeString (text :: next :: texts))

/-! ## Docstrings -/

/-- The cases of contents, which take a character at a time, or an escape with the character
behind it. -/
theorem escape_induction {motive : List Char → Prop} (nil : motive [])
    (lone : motive ['\\']) (escape : ∀ c rest, motive rest → motive ('\\' :: c :: rest))
    (other : ∀ c rest, c ≠ '\\' → motive rest → motive (c :: rest)) (text : List Char) :
    motive text := by
  match text with
  | [] => exact nil
  | [c] =>
      by_cases isEscape : c = '\\'
      · rw [isEscape]
        exact lone
      · exact other c [] isEscape nil
  | c :: next :: rest =>
      by_cases isEscape : c = '\\'
      · rw [isEscape]
        exact escape next rest (escape_induction nil lone escape other rest)
      · exact other c (next :: rest) isEscape
          (escape_induction nil lone escape other (next :: rest))

/-- One or two quotes before another character are passed over. -/
theorem passed_quotes {closing : Nat} (early : closing < 3) (noQuote : c ≠ '"')
    (rest : List Char) : Passed longQuotes (List.replicate closing '"') (c :: rest) := by
  have one : Passed longQuotes ['"'] (c :: rest) := by
    apply passed_singleton (by decide)
    rintro ⟨_, begins⟩
    cases begins
    exact noQuote rfl
  have two : Passed longQuotes ['"'] ('"' :: c :: rest) := by
    apply passed_singleton (by decide)
    rintro ⟨_, begins⟩
    cases begins
    exact noQuote rfl
  rcases closing with _ | _ | _ | more
  · exact .nil _ _
  · exact one
  · exact two.append one
  · omega

open Gathering in
/-- What stands before the first closing quotes is the content of a long string. -/
theorem run_of_quoted? {contents : List (List Char)} {text : List Char} {closing : Nat}
    (early : closing < 3) {content read left : List Char}
    (found : quoted? longQuotes (List.replicate closing '"' ++ text) = some (read, left)) :
    run ⟨.long .double closing, content, contents⟩ text =
      run ⟨.code, [], contents ++ [content ++ read]⟩ left := by
  induction text using escape_induction generalizing closing content read with
  | nil =>
      rcases closing with _ | _ | _ | more
      · cases found
      · cases found
      · cases found
      · omega
  | lone =>
      rw [passed_quotes early (by decide)] at found
      cases found
  | escape c rest ih =>
      rw [passed_quotes early (by decide), quoted?, Option.map_map,
        Option.map_eq_some_iff] at found
      obtain ⟨⟨later, behind⟩, found, equal⟩ := found
      cases equal
      have anew : quoted? longQuotes (List.replicate 0 '"' ++ rest) = some (later, behind) :=
        found
      have goes : run ⟨.long .double closing, content, contents⟩ ['\\', c] =
          ⟨.long .double 0, content ++ (List.replicate closing '"' ++ ['\\']) ++ [c],
            contents⟩ := rfl
      have split : '\\' :: c :: rest = ['\\', c] ++ rest := rfl
      rw [split, run_append, goes, ih (by decide) anew]
      simp
  | other c rest noEscape ih =>
      by_cases quote : c = '"'
      · subst quote
        by_cases last : closing = 2
        · subst last
          have closes : quoted? longQuotes (longQuotes ++ rest) = some ([], rest) :=
            quoted?_closing (by decide) _ _
          cases closes.symm.trans found
          rw [List.append_nil]
          rfl
        · have more : List.replicate closing '"' ++ '"' :: rest =
              List.replicate (closing + 1) '"' ++ rest := by
            rw [List.replicate_succ', List.append_assoc, List.singleton_append]
          have few : closing < 2 := by omega
          have goes : step ⟨.long .double closing, content, contents⟩ '"' =
              ⟨.long .double (closing + 1), content, contents⟩ := by
            have leads : (Place.long .double closing).next '"' = .long .double (closing + 1) :=
              Place.next_long_quote few
            simp only [step, Quote.char, if_true, if_pos few, leads]
            rfl
          rw [more] at found
          rw [run_cons, goes]
          exact ih (by omega) found
      · have single : Passed longQuotes [c] rest := by
          apply passed_singleton noEscape
          rintro ⟨_, begins⟩
          exact quote (List.cons.inj begins).1.symm
        rw [passed_quotes early quote, ← List.singleton_append, single, Option.map_map,
          Option.map_eq_some_iff] at found
        obtain ⟨⟨later, behind⟩, found, equal⟩ := found
        cases equal
        have anew : quoted? longQuotes (List.replicate 0 '"' ++ rest) = some (later, behind) :=
          found
        have noQuote : c ≠ Quote.double.char := quote
        rw [run_cons, step_long noQuote noEscape, ih (by decide) anew]
        simp [Quote.char]

/-- A docstring that is not closed early is a string whose content is what was written. -/
theorem hasStrings_docstring {text : List Char} (closes : ¬ ClosesEarly (Text.trim text)) :
    HasStrings (longQuoted (docstringOf text)) [docstringOf text] := by
  have read : stringAt? (longQuoted (docstringOf text)) = some (docstringOf text, []) := by
    cases quoteEnding (Text.trim text) with
    | solid solid _ => exact (reads_of_solid solid).1
    | left split left _ => exact (reads_of_left split left).1
    | escaped _ early => exact absurd early closes
  have found : quoted? longQuotes (List.replicate 0 '"' ++ (docstringOf text ++ longQuotes)) =
      some (docstringOf text, []) := read
  intro before
  have opened : Gathering.run ⟨.code, [], before⟩ longQuotes =
      ⟨.long .double 0, [], before⟩ := rfl
  rw [longQuoted, List.append_assoc, Gathering.run_append, opened,
    run_of_quoted? (by decide) found, List.nil_append]
  rfl

/-! ## Statements -/

theorem hasStrings_assign {name : String} (plain : Plain name.toList) {value : Literal}
    {contents : List (List Char)} (has : HasStrings (ended value.render) contents) :
    HasStrings (Statement.assign name value).render contents := by
  have before : Plain (name.toList ++ " = ".toList) := plain.append (by decide)
  have whole := (HasStrings.plain before).append has
  rw [List.nil_append, ended, ← List.append_assoc] at whole
  exact whole

theorem hasStrings_assign_str {name : String} (plain : Plain name.toList) (value : String) :
    HasStrings (Statement.assign name (.str value)).render [written value] := by
  apply hasStrings_assign plain
  exact hasStrings_writeString value (by decide) .feed

theorem hasStrings_assign_tuple {name : String} (plain : Plain name.toList)
    (values : List String) :
    HasStrings (Statement.assign name (.tuple (values.map .str))).render
      (values.map written) := by
  apply hasStrings_assign plain
  exact (hasStrings_tuple values).ended

theorem hasStrings_comment (description : String) :
    HasStrings (Statement.comment (comment description)).render [] := by
  have whole : ∀ line ∈ (Text.brokenLines (Text.trim description.toList)).map Text.trimEnd,
      Unbroken line := fun _ => Reading.unbroken_of_mem_brokenLines
  have shown : (comment description).toList = commentOf description.toList :=
    String.toList_ofList
  rw [Statement.render, shown, commentOf]
  exact .comment whole

theorem hasStrings_field {field : Field} (declared : Declared field) :
    HasStrings (ended (BodyLine.field field).render) [] := by
  rw [render_field]
  rcases choicesRemark_eq field.choices with none | ⟨remark, some, whole⟩
  · rw [none, List.append_nil]
    exact .line (plain_codeLine declared)
  · rw [some]
    exact .remarked (plain_codeLine declared) whole

theorem hasStrings_docstringLine {description : String}
    (closes : ¬ ClosesEarly (Text.trim description.toList)) :
    HasStrings (ended (BodyLine.docstring description).render)
      [docstringOf description.toList] := by
  have indent : HasStrings "    ".toList [] := .plain (by decide)
  exact (indent.append (hasStrings_docstring closes)).ended

end Source

/-! ## Constants, classes and modules -/

/-- The texts that the constants of a method hold, in their order. -/
def Constants.texts (constants : Constants) : List String :=
  [constants.id, constants.kind] ++ (constants.inputEncoding.filter (· ≠ "")).toList ++
    (constants.outputEncoding.filter (· ≠ "")).toList ++ constants.errors

/-- The docstring of a class, if its description says anything. -/
def Struct.docstring? (struct : Struct) : Option (List Char) :=
  (struct.description.filter (· ≠ "")).map fun description => docstringOf description.toList

/-- The contents of the strings of a module: its constants, then its docstrings. -/
def Module.strings (generated : Module) : List (List Char) :=
  (generated.methods.flatMap Constants.texts).map written ++
    generated.structs.filterMap Struct.docstring?

namespace Source

theorem hasStrings_encoding {name : String} (plain : Plain name.toList)
    (encoding : Option String) :
    HasStrings ((Constants.encodingStatements name encoding).flatMap Statement.render)
      ((encoding.filter (· ≠ "")).toList.map written) := by
  rw [Constants.encodingStatements]
  cases encoding.filter (· ≠ "") with
  | none => exact .nil
  | some encoding =>
      have has := hasStrings_assign_str plain encoding
      simpa using has

theorem hasStrings_constants {constants : Constants}
    (declarable : Name.isDeclarable constants.stem = true) :
    HasStrings (constants.statements.flatMap Statement.render)
      (constants.texts.map written) := by
  have stem := Reading.plain_of_isDeclarable declarable
  have named : ∀ ending : String, Plain ending.toList →
      Plain (constants.stem ++ ending).toList := by
    intro ending plain
    rw [String.toList_append]
    exact stem.append plain
  have blank : HasStrings (ended []) [] := .feed
  have comments : HasStrings (constants.comments.flatMap Statement.render) [] := by
    rw [Constants.comments]
    cases constants.description.filter (· ≠ "") with
    | none => exact .nil
    | some description => simpa using hasStrings_comment description
  have id := hasStrings_assign_str (named "_NSID" (by decide)) constants.id
  have kind := hasStrings_assign_str (named "_KIND" (by decide)) constants.kind
  have input := hasStrings_encoding (named "_INPUT_ENCODING" (by decide)) constants.inputEncoding
  have output :=
    hasStrings_encoding (named "_OUTPUT_ENCODING" (by decide)) constants.outputEncoding
  have errors := hasStrings_assign_tuple (named "_ERRORS" (by decide)) constants.errors
  have whole := ((((blank.append (blank.append comments)).append (id.append kind)).append
    input).append output).append errors
  simpa [Constants.statements, Constants.texts, Statement.render] using whole

theorem hasStrings_fields {fields : List Field} (declared : ∀ field ∈ fields, Declared field) :
    HasStrings ((fields.map BodyLine.field).flatMap fun line => ended line.render) [] := by
  have whole : HasStrings (fields.flatMap fun field => ended (BodyLine.field field).render)
      (fields.flatMap fun _ => []) :=
    .flatMap fun field member => hasStrings_field (declared field member)
  have none : (fields.flatMap fun _ => ([] : List (List Char))) = [] :=
    List.flatMap_eq_nil_iff.mpr fun _ _ => rfl
  rw [none] at whole
  rw [List.flatMap_map]
  exact whole

theorem hasStrings_body {struct : Struct} (declared : ∀ field ∈ struct.fields, Declared field)
    (closes : ∀ description, struct.description = some description →
      ¬ ClosesEarly (Text.trim description.toList)) :
    HasStrings (struct.body.flatMap fun line => ended line.render)
      struct.docstring?.toList := by
  have fields := hasStrings_fields declared
  rw [Struct.body, Struct.docstring?]
  cases shown : struct.description.filter (· ≠ "") with
  | none =>
      cases none : struct.fields with
      | nil => exact .line (show Plain "    pass".toList by decide)
      | cons field others =>
          rw [none] at fields
          exact fields
  | some description =>
      have given := (Option.filter_eq_some_iff.mp shown).1
      have docstring := hasStrings_docstringLine (closes description given)
      dsimp only
      rw [List.flatMap_cons]
      cases none : struct.fields with
      | nil => exact docstring.append .nil
      | cons field others =>
          have blank : HasStrings (ended []) [] := .feed
          rw [none] at fields
          exact docstring.append (blank.append fields)

theorem hasStrings_struct {struct : Struct} (named : Name.isDeclarable struct.name = true)
    (declared : ∀ field ∈ struct.fields, Declared field)
    (closes : ∀ description, struct.description = some description →
      ¬ ClosesEarly (Text.trim description.toList)) :
    HasStrings (struct.statements.flatMap Statement.render) struct.docstring?.toList := by
  have blank : HasStrings (ended []) [] := .feed
  have decorator : HasStrings (ended "@dataclass".toList) [] := .line (by decide)
  have opening : Plain "class ".toList := by decide
  have header : HasStrings (ended ("class ".toList ++ struct.name.toList ++ [':'])) [] :=
    .line ((opening.append (Reading.plain_of_isDeclarable named)).append (by decide))
  have body := hasStrings_body declared closes
  have whole := blank.append (blank.append ((decorator.append header).append body))
  simpa [Struct.statements, Statement.render] using whole

theorem hasStrings_preamble {generated : Module}
    (unbroken : Unbroken generated.sourceId.toList) :
    HasStrings (generated.preamble.flatMap Statement.render) [] := by
  have blank : HasStrings (ended []) [] := .feed
  have header : HasStrings (Statement.comment (Module.header generated.sourceId)).render [] :=
    .commentLine (unbroken_header unbroken)
  have line : ∀ source name : String,
      Plain ("from ".toList ++ source.toList ++ " import ".toList ++ name.toList) →
        HasStrings (Statement.importName source name).render [] :=
    fun _ _ plain => .line plain
  have future := line "__future__" "annotations" (by decide)
  have dataclass := line "dataclasses" "dataclass" (by decide)
  have optional := line "typing" "Optional" (by decide)
  have always := header.append (blank.append (future.append (blank.append dataclass)))
  cases typed : generated.hasOptionalField with
  | true => simpa [Module.preamble, typed, Statement.render] using always.append optional
  | false => simpa [Module.preamble, typed, Statement.render] using always

theorem hasStrings_draftText {generated : Module}
    (unbroken : Unbroken generated.sourceId.toList)
    (stems : ∀ constants ∈ generated.methods, Name.isDeclarable constants.stem = true)
    (named : ∀ struct ∈ generated.structs, Name.isDeclarable struct.name = true)
    (declared : ∀ struct ∈ generated.structs, ∀ field ∈ struct.fields, Declared field)
    (closes : ∀ struct ∈ generated.structs, ∀ description,
      struct.description = some description → ¬ ClosesEarly (Text.trim description.toList)) :
    HasStrings generated.draftText generated.strings := by
  have methods : HasStrings
      (generated.methods.flatMap fun constants => constants.statements.flatMap Statement.render)
      (generated.methods.flatMap fun constants => constants.texts.map written) :=
    .flatMap fun constants member => hasStrings_constants (stems constants member)
  have structs : HasStrings
      (generated.structs.flatMap fun struct => struct.statements.flatMap Statement.render)
      (generated.structs.flatMap fun struct => struct.docstring?.toList) :=
    .flatMap fun struct member => hasStrings_struct (named struct member)
      (declared struct member) (closes struct member)
  have whole := ((hasStrings_preamble unbroken).append methods).append structs
  rw [Module.draftText, Module.statements, List.flatMap_append, List.flatMap_append,
    List.flatMap_assoc, List.flatMap_assoc, Module.strings, List.map_flatMap,
    List.filterMap_eq_flatMap_toList]
  exact whole

end Source

end LexiconCompiler
