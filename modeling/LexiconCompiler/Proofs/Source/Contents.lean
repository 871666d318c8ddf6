import LexiconCompiler.Proofs.Source.Lexing

/-!
# The contents of strings

The contents of the strings of a text are what stands between their quotes, escapes left as
they are. They are gathered by the rules that tell strings from code and comments, and each
of them stands in the text as it was gathered.
-/

namespace LexiconCompiler.Source

/-- The place behind a character. -/
def Place.next (place : Place) (c : Char) : Place :=
  (Reading.step ⟨place, [], []⟩ c).place

namespace Reading

variable {c : Char} {quote : Quote} {closing : Nat}

theorem place_stepCode (first second : Reading) :
    (first.stepCode c).place = (second.stepCode c).place := by
  rw [stepCode, stepCode]
  cases Quote.ofChar? c with
  | some quote => rfl
  | none =>
      dsimp only
      split
      · rfl
      · split <;> rfl

theorem place_stepShort (first second : Reading) :
    (first.stepShort quote c).place = (second.stepShort quote c).place := by
  rw [stepShort, stepShort]
  split
  · rfl
  · split
    · rfl
    · split <;> rfl

theorem place_stepLong (first second : Reading) :
    (first.stepLong quote closing c).place = (second.stepLong quote closing c).place := by
  rw [stepLong, stepLong]
  split
  · split <;> rfl
  · split <;> rfl

/-- Where a character leads to is told by the place before it. -/
theorem place_step (reading : Reading) (c : Char) :
    (reading.step c).place = reading.place.next c := by
  obtain ⟨place, line, lines⟩ := reading
  cases place with
  | code => exact place_stepCode _ _
  | comment =>
      rw [Place.next, step_comment, step_comment]
      split <;> rfl
  | quoteOnce quote =>
      simp only [Place.next, step]
      split
      · rfl
      · exact place_stepShort _ _
  | quoteTwice quote =>
      simp only [Place.next, step]
      split
      · rfl
      · exact place_stepCode _ _
  | short quote => exact place_stepShort _ _
  | shortEscape quote => rfl
  | long quote closing => exact place_stepLong _ _
  | longEscape quote => rfl
  | unclosed => rfl

end Reading

namespace Place

variable {c : Char} {quote : Quote} {closing : Nat}

theorem next_quoteOnce_quote : (quoteOnce quote).next quote.char = .quoteTwice quote := by
  cases quote <;> rfl

theorem next_quoteTwice_quote : (quoteTwice quote).next quote.char = .long quote 0 := by
  cases quote <;> rfl

theorem next_short_quote : (short quote).next quote.char = .code := by
  cases quote <;> rfl

theorem next_quoteOnce (noQuote : c ≠ quote.char) :
    (quoteOnce quote).next c = (short quote).next c := by
  simp only [next, Reading.step, if_neg noQuote]
  exact Reading.place_stepShort _ _

theorem next_quoteTwice (noQuote : c ≠ quote.char) :
    (quoteTwice quote).next c = code.next c := by
  simp only [next, Reading.step, if_neg noQuote]
  exact Reading.place_stepCode _ _

theorem next_code (c : Char) :
    (∃ quote, code.next c = .quoteOnce quote) ∨ code.next c = .comment ∨
      code.next c = .code := by
  change (∃ quote, (Reading.stepCode _ c).place = _) ∨ (Reading.stepCode _ c).place = _ ∨
    (Reading.stepCode _ c).place = _
  rw [Reading.stepCode]
  cases Quote.ofChar? c with
  | some quote => exact .inl ⟨quote, rfl⟩
  | none =>
      dsimp only
      split
      · exact .inr (.inl rfl)
      · split <;> exact .inr (.inr rfl)

theorem next_comment (c : Char) : comment.next c = .code ∨ comment.next c = .comment := by
  rw [next, Reading.step_comment]
  split
  · exact .inl rfl
  · exact .inr rfl

theorem next_short (noQuote : c ≠ quote.char) :
    (short quote).next c = .shortEscape quote ∨ (short quote).next c = .short quote ∨
      (short quote).next c = .unclosed := by
  change (Reading.stepShort _ quote c).place = _ ∨ (Reading.stepShort _ quote c).place = _ ∨
    (Reading.stepShort _ quote c).place = _
  rw [Reading.stepShort, if_neg noQuote]
  split
  · exact .inl rfl
  · split
    · exact .inr (.inr rfl)
    · exact .inr (.inl rfl)

theorem next_long (noQuote : c ≠ quote.char) :
    (long quote closing).next c = .longEscape quote ∨
      (long quote closing).next c = .long quote 0 := by
  change (Reading.stepLong _ quote closing c).place = _ ∨
    (Reading.stepLong _ quote closing c).place = _
  rw [Reading.stepLong, if_neg noQuote]
  split
  · exact .inl rfl
  · exact .inr rfl

theorem next_long_quote (early : closing < 2) :
    (long quote closing).next quote.char = .long quote (closing + 1) := by
  change (Reading.stepLong _ quote closing quote.char).place = _
  rw [Reading.stepLong, if_pos rfl, if_pos early]
  rfl

theorem next_long_last_quote (last : ¬ closing < 2) :
    (long quote closing).next quote.char = .code := by
  change (Reading.stepLong _ quote closing quote.char).place = _
  rw [Reading.stepLong, if_pos rfl, if_neg last]
  rfl

end Place

/-- What has been gathered of the strings of a text: the place that was reached, the content
of the string at that place, and the contents of the strings before it. -/
structure Gathering where
  place : Place
  /-- The content so far, without quotes that may be those that end the string. -/
  content : List Char
  contents : List (List Char)
  deriving DecidableEq, Repr

namespace Gathering

/-- Before the first character. -/
def start : Gathering := ⟨.code, [], []⟩

/-- Go on elsewhere. -/
def move (gathering : Gathering) (place : Place) : Gathering :=
  { gathering with place }

/-- Go on elsewhere, with a content that starts with a text. -/
def enter (gathering : Gathering) (place : Place) (text : List Char) : Gathering :=
  { gathering with place, content := text }

/-- Go on elsewhere, with more of the content. -/
def extend (gathering : Gathering) (place : Place) (text : List Char) : Gathering :=
  { gathering with place, content := gathering.content ++ text }

/-- Go on elsewhere, with the content among those before. -/
def close (gathering : Gathering) (place : Place) : Gathering :=
  ⟨place, [], gathering.contents ++ [gathering.content]⟩

/-- Read a character. Quotes in a string that three of them end are taken to its content
only with what follows them. -/
def step (gathering : Gathering) (c : Char) : Gathering :=
  let place := gathering.place.next c
  match gathering.place with
  | .code | .comment | .unclosed => gathering.move place
  | .quoteOnce quote =>
      if c = quote.char then gathering.move place else gathering.enter place [c]
  | .quoteTwice quote =>
      if c = quote.char then gathering.enter place []
      else (gathering.enter place []).close place
  | .short quote =>
      if c = quote.char then gathering.close place else gathering.extend place [c]
  | .shortEscape _ | .longEscape _ => gathering.extend place [c]
  | .long quote closing =>
      if c = quote.char then
        if closing < 2 then gathering.move place else gathering.close place
      else gathering.extend place (List.replicate closing quote.char ++ [c])

/-- Read a text. -/
def run (gathering : Gathering) (text : List Char) : Gathering :=
  text.foldl step gathering

end Gathering

/-- The contents of the strings of a text, if they are all closed. The end of the text ends
a line. -/
def stringsOf (text : List Char) : Option (List (List Char)) :=
  let gathering := Gathering.start.run (text ++ ['\n'])
  if gathering.place = .code then some gathering.contents else none

example : stringsOf "x = \"a\\\"\" + '' # 'b'\n'''c''\\'\n'''\"d\"".toList =
    some ["a\\\"".toList, [], "c''\\'\n".toList, "d".toList] := by
  decide

theorem stringsOf_eq_some {text : List Char} {contents : List (List Char)} :
    stringsOf text = some contents ↔
      (Gathering.start.run (text ++ ['\n'])).place = .code ∧
        (Gathering.start.run (text ++ ['\n'])).contents = contents := by
  simp only [stringsOf]
  split
  · rename_i inCode
    rw [Option.some.injEq]
    exact ⟨fun same => ⟨inCode, same⟩, And.right⟩
  · rename_i elsewhere
    constructor
    · intro equal
      cases equal
    · intro ⟨inCode, _⟩
      exact absurd inCode elsewhere

namespace Gathering

variable {c : Char}

@[simp] theorem run_nil (gathering : Gathering) : gathering.run [] = gathering := rfl

@[simp] theorem run_cons (gathering : Gathering) (c : Char) (text : List Char) :
    gathering.run (c :: text) = (gathering.step c).run text := rfl

theorem run_append (gathering : Gathering) (early late : List Char) :
    gathering.run (early ++ late) = (gathering.run early).run late :=
  List.foldl_append

/-- A gathering is where a reading is. -/
theorem place_step (gathering : Gathering) (c : Char) :
    (gathering.step c).place = gathering.place.next c := by
  simp only [step]
  cases gathering.place with
  | code => rfl
  | comment => rfl
  | unclosed => rfl
  | shortEscape quote => rfl
  | longEscape quote => rfl
  | quoteOnce quote =>
      dsimp only
      split <;> rfl
  | quoteTwice quote =>
      dsimp only
      split <;> rfl
  | short quote =>
      dsimp only
      split <;> rfl
  | long quote closing =>
      dsimp only
      split
      · split <;> rfl
      · rfl

/-! ## Steps -/

variable {quote : Quote} {content : List Char} {contents : List (List Char)}

theorem step_code_feed : step ⟨.code, content, contents⟩ '\n' = ⟨.code, content, contents⟩ :=
  rfl

theorem step_quoteTwice_feed : step ⟨.quoteTwice quote, content, contents⟩ '\n' =
    ⟨.code, [], contents ++ [[]]⟩ := by
  cases quote <;> rfl

theorem step_longEscape (c : Char) : step ⟨.longEscape quote, content, contents⟩ c =
    ⟨.long quote 0, content ++ [c], contents⟩ := rfl

theorem step_long {closing : Nat} (noQuote : c ≠ quote.char) (noEscape : c ≠ '\\') :
    step ⟨.long quote closing, content, contents⟩ c =
      ⟨.long quote 0, content ++ (List.replicate closing quote.char ++ [c]), contents⟩ := by
  have leads : (Place.long quote closing).next c = .long quote 0 :=
    congrArg Reading.place (Reading.step_long noQuote noEscape)
  simp only [step, if_neg noQuote, leads]
  rfl

/-- A string that was not ended on its line is never left. -/
theorem run_of_unclosed {gathering : Gathering} (unclosed : gathering.place = .unclosed)
    (text : List Char) : gathering.run text = gathering := by
  obtain ⟨place, content, contents⟩ := gathering
  cases unclosed
  induction text with
  | nil => rfl
  | cons c text ih => exact ih

theorem closed_of_run {gathering : Gathering} {text : List Char}
    (closed : (gathering.run text).place ≠ .unclosed) : gathering.place ≠ .unclosed := by
  intro unclosed
  rw [run_of_unclosed unclosed] at closed
  exact closed unclosed

/-! ## Contents as parts of a text -/

variable {gathering : Gathering} {text : List Char}

/-- What the string at a place holds so far: its content, and quotes that may end it. -/
def held (gathering : Gathering) : List Char :=
  match gathering.place with
  | .short _ | .shortEscape _ | .longEscape _ => gathering.content
  | .long quote closing => gathering.content ++ List.replicate closing quote.char
  | .code | .comment | .quoteOnce _ | .quoteTwice _ | .unclosed => []

/-- What has been gathered stands in a text, and what the open string holds at its end. -/
structure StandsIn (gathering : Gathering) (text : List Char) : Prop where
  held : gathering.held <:+ text
  contents : ∀ content ∈ gathering.contents, content <:+: text

theorem held_next_code : held ⟨Place.code.next c, content, contents⟩ <:+ text := by
  rcases Place.next_code c with ⟨quote, leads⟩ | leads | leads <;> rw [leads] <;>
    exact List.nil_suffix

theorem held_next_comment : held ⟨Place.comment.next c, content, contents⟩ <:+ text := by
  rcases Place.next_comment c with leads | leads <;> rw [leads] <;> exact List.nil_suffix

theorem held_next_short (noQuote : c ≠ quote.char) (inside : content <:+ text) :
    held ⟨(Place.short quote).next c, content, contents⟩ <:+ text := by
  rcases Place.next_short noQuote with leads | leads | leads <;> rw [leads]
  · exact inside
  · exact inside
  · exact List.nil_suffix

theorem held_next_long {closing : Nat} (noQuote : c ≠ quote.char) (inside : content <:+ text) :
    held ⟨(Place.long quote closing).next c, content, contents⟩ <:+ text := by
  rcases Place.next_long noQuote with leads | leads <;> rw [leads]
  · exact inside
  · change content ++ [] <:+ text
    rw [List.append_nil]
    exact inside

/-- What stands in a text still does so behind one more character. -/
theorem StandsIn.step (stands : gathering.StandsIn text) (c : Char) :
    (gathering.step c).StandsIn (text ++ [c]) := by
  obtain ⟨place, content, contents⟩ := gathering
  obtain ⟨here, before⟩ := stands
  have wider : ∀ {part}, part <:+: text → part <:+: text ++ [c] :=
    fun inside => inside.trans (List.prefix_append _ _).isInfix
  have older : ∀ part ∈ contents, part <:+: text ++ [c] :=
    fun part member => wider (before part member)
  have closed : ∀ {part}, part <:+: text → ∀ other ∈ contents ++ [part],
      other <:+: text ++ [c] := by
    intro part inside other member
    rcases List.mem_append.mp member with early | last
    · exact older other early
    · rw [List.mem_singleton.mp last]
      exact wider inside
  have grown : ∀ {part}, part <:+ text → part ++ [c] <:+ text ++ [c] := by
    rintro part ⟨front, rfl⟩
    exact ⟨front, (List.append_assoc _ _ _).symm⟩
  cases place with
  | code => exact ⟨held_next_code, older⟩
  | comment => exact ⟨held_next_comment, older⟩
  | unclosed => exact ⟨List.nil_suffix, older⟩
  | quoteOnce quote =>
      simp only [Gathering.step]
      split
      · rename_i same
        rw [same, Place.next_quoteOnce_quote]
        exact ⟨List.nil_suffix, same ▸ older⟩
      · rename_i noQuote
        rw [Place.next_quoteOnce noQuote]
        exact ⟨held_next_short noQuote (List.suffix_append text [c]), older⟩
  | quoteTwice quote =>
      simp only [Gathering.step]
      split
      · rename_i same
        rw [same, Place.next_quoteTwice_quote]
        exact ⟨List.nil_suffix, same ▸ older⟩
      · rename_i noQuote
        rw [Place.next_quoteTwice noQuote]
        exact ⟨held_next_code, closed List.nil_infix⟩
  | short quote =>
      simp only [Gathering.step]
      split
      · rename_i same
        rw [same, Place.next_short_quote]
        exact ⟨List.nil_suffix, same ▸ closed here.isInfix⟩
      · rename_i noQuote
        exact ⟨held_next_short noQuote (grown here), older⟩
  | shortEscape quote => exact ⟨grown here, older⟩
  | longEscape quote =>
      refine ⟨?_, older⟩
      change content ++ [c] ++ [] <:+ _
      rw [List.append_nil]
      exact grown here
  | long quote closing =>
      simp only [Gathering.step]
      split
      · rename_i same
        rw [same] at grown older closed ⊢
        split
        · rename_i early
          rw [Place.next_long_quote early]
          refine ⟨?_, older⟩
          change content ++ List.replicate (closing + 1) quote.char <:+ _
          rw [List.replicate_succ', ← List.append_assoc]
          exact grown here
        · rename_i last
          rw [Place.next_long_last_quote last]
          exact ⟨List.nil_suffix, closed ((List.prefix_append _ _).isInfix.trans here.isInfix)⟩
      · rename_i noQuote
        refine ⟨held_next_long noQuote ?_, older⟩
        rw [← List.append_assoc]
        exact grown here

theorem StandsIn.run {before : List Char} (stands : gathering.StandsIn before)
    (text : List Char) : (gathering.run text).StandsIn (before ++ text) := by
  induction text generalizing gathering before with
  | nil =>
      rw [List.append_nil]
      exact stands
  | cons c text ih =>
      have later := ih (stands.step c)
      rwa [List.append_assoc] at later

/-- Every content stands in the text. -/
theorem standsIn_run (text : List Char) : (start.run text).StandsIn text := by
  have first : start.StandsIn [] := ⟨List.nil_suffix, fun _ member => nomatch member⟩
  exact first.run text

end Gathering

end LexiconCompiler.Source
