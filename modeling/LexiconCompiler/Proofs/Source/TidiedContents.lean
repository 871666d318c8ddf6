import LexiconCompiler.Proofs.Source.Contents
import LexiconCompiler.Proofs.Source.Tightening

/-!
# Strings of a text that is laid out

Laying a text out takes blanks and line feeds away from the contents of its strings, too.
What comes of it is that every string stays and its content is tightened: no string ends
earlier or later, and what is taken away are the blanks that are too much.
-/

namespace LexiconCompiler.Source

namespace Gathering

variable {first second third : Gathering} {c : Char}

/-! ## Gatherings that tighten to the same -/

/-- Two gatherings are at the same place, and no text behind it tells their contents apart
once these are tightened. -/
structure Alike (first second : Gathering) : Prop where
  place : first.place = second.place
  content : ∀ rest, tighten (first.content ++ rest) = tighten (second.content ++ rest)
  contents : first.contents.map tighten = second.contents.map tighten

namespace Alike

theorem refl (gathering : Gathering) : Alike gathering gathering :=
  ⟨rfl, fun _ => rfl, rfl⟩

theorem trans (early : Alike first second) (late : Alike second third) :
    Alike first third :=
  ⟨early.place.trans late.place, fun rest => (early.content rest).trans (late.content rest),
    early.contents.trans late.contents⟩

theorem move (alike : Alike first second) (place : Place) :
    Alike (first.move place) (second.move place) :=
  ⟨rfl, alike.content, alike.contents⟩

theorem enter (alike : Alike first second) (place : Place) (text : List Char) :
    Alike (first.enter place text) (second.enter place text) :=
  ⟨rfl, fun _ => rfl, alike.contents⟩

theorem extend (alike : Alike first second) (place : Place) (text : List Char) :
    Alike (first.extend place text) (second.extend place text) := by
  refine ⟨rfl, ?_, alike.contents⟩
  intro rest
  change tighten (first.content ++ text ++ rest) = tighten (second.content ++ text ++ rest)
  rw [List.append_assoc, List.append_assoc]
  exact alike.content (text ++ rest)

theorem close (alike : Alike first second) (place : Place) :
    Alike (first.close place) (second.close place) := by
  refine ⟨rfl, fun _ => rfl, ?_⟩
  have whole := alike.content []
  rw [List.append_nil, List.append_nil] at whole
  simp only [Gathering.close, List.map_append, List.map_singleton, alike.contents, whole]

theorem step (alike : Alike first second) (c : Char) :
    Alike (first.step c) (second.step c) := by
  have same := alike.place
  simp only [Gathering.step, ← same]
  cases first.place with
  | code => exact alike.move _
  | comment => exact alike.move _
  | unclosed => exact alike.move _
  | shortEscape quote => exact alike.extend _ _
  | longEscape quote => exact alike.extend _ _
  | quoteOnce quote =>
      dsimp only
      split
      · exact alike.move _
      · exact alike.enter _ _
  | quoteTwice quote =>
      dsimp only
      split
      · exact alike.enter _ _
      · exact (alike.enter _ _).close _
  | short quote =>
      dsimp only
      split
      · exact alike.close _
      · exact alike.extend _ _
  | long quote closing =>
      dsimp only
      split
      · split
        · exact alike.move _
        · exact alike.close _
      · exact alike.extend _ _

theorem run (alike : Alike first second) (text : List Char) :
    Alike (first.run text) (second.run text) := by
  induction text generalizing first second with
  | nil => exact alike
  | cons c text ih => exact ih (alike.step c)

end Alike

end Gathering

/-! ## Texts that are gathered alike -/

theorem Place.next_code_of_isBlank {c : Char} (blank : Text.isBlank c = true) :
    code.next c = .code := by
  have noMark : c ≠ '#' := Reading.ne_of_isBlank blank (by decide)
  change (Reading.stepCode _ c).place = _
  rw [Reading.stepCode, Reading.ofChar?_of_isBlank blank]
  dsimp only
  rw [if_neg noMark]
  split <;> rfl

/-- Two texts tell nothing apart that comes before or behind them, once contents are
tightened, unless the first leaves a string unclosed. -/
def GatheredAlike (before after : List Char) : Prop :=
  ∀ gathering : Gathering, (gathering.run before).place ≠ .unclosed →
    Gathering.Alike (gathering.run before) (gathering.run after)

namespace GatheredAlike

open Gathering

variable {c : Char} {first second third : List Char}

theorem refl (text : List Char) : GatheredAlike text text :=
  fun _ _ => .refl _

theorem trans (early : GatheredAlike first second) (late : GatheredAlike second third) :
    GatheredAlike first third := by
  intro gathering closed
  have here := early gathering closed
  rw [here.place] at closed
  exact here.trans (late gathering closed)

theorem append {early late early' late' : List Char} (left : GatheredAlike early early')
    (right : GatheredAlike late late') : GatheredAlike (early ++ late) (early' ++ late') := by
  intro gathering closed
  rw [run_append] at closed
  have here := (left gathering (closed_of_run closed)).run late
  rw [here.place] at closed
  rw [run_append, run_append]
  exact here.trans (right _ closed)

theorem flatMap {α : Type} {items : List α} {before after : α → List Char}
    (each : ∀ item ∈ items, GatheredAlike (before item) (after item)) :
    GatheredAlike (items.flatMap before) (items.flatMap after) := by
  induction items with
  | nil => exact refl []
  | cons item items ih =>
      exact (each item List.mem_cons_self).append
        (ih fun other member => each other (List.mem_cons_of_mem _ member))

/-- A blank before a line feed makes no difference. -/
theorem blank_feed (blank : Text.isBlank c = true) (other : c ≠ '\n') :
    GatheredAlike [c, '\n'] ['\n'] := by
  have noQuote := Reading.ne_char_of_isBlank blank
  have noEscape : c ≠ '\\' := Reading.ne_of_isBlank blank (by decide)
  have noBreak : ∀ quote : Quote, '\n' ≠ quote.char := Reading.ne_char_of_isBlank (by decide)
  have stays := Place.next_code_of_isBlank blank
  have late : ∀ quote, ((Place.short quote).next c).next '\n' = .unclosed := by
    intro quote
    have unclosed := Reading.stepShort_blank blank ⟨.short quote, [], []⟩ quote
    rwa [Reading.place_step] at unclosed
  rintro ⟨place, content, contents⟩ closed
  rw [run_cons, run_cons, run_nil, place_step, place_step] at closed
  rw [run_cons, run_cons, run_nil, run_cons, run_nil]
  cases place with
  | unclosed => exact absurd rfl closed
  | short quote => exact absurd (late quote) closed
  | quoteOnce quote =>
      rw [Place.next_quoteOnce (noQuote quote)] at closed
      exact absurd (late quote) closed
  | shortEscape quote => exact absurd (Reading.stepShort_newline _ quote) closed
  | code =>
      have same : step ⟨.code, content, contents⟩ c = ⟨.code, content, contents⟩ :=
        congrArg (move _) stays
      rw [same]
      exact .refl _
  | comment =>
      have same : step ⟨.comment, content, contents⟩ c =
          ⟨Place.comment.next c, content, contents⟩ := rfl
      rw [same]
      rcases Place.next_comment c with leads | leads <;> rw [leads] <;> exact .refl _
  | quoteTwice quote =>
      have begins : (Place.quoteTwice quote).next c = .code :=
        (Place.next_quoteTwice (noQuote quote)).trans stays
      have same : step ⟨.quoteTwice quote, content, contents⟩ c =
          ⟨.code, [], contents ++ [[]]⟩ := by
        simp only [step, if_neg (noQuote quote), begins]
        rfl
      rw [same, step_quoteTwice_feed, step_code_feed]
      exact .refl _
  | long quote closing =>
      rw [step_long (noQuote quote) noEscape, step_long (noBreak quote) (by decide),
        step_long (noBreak quote) (by decide)]
      refine ⟨rfl, ?_, rfl⟩
      intro rest
      have tightened := tighten_append_congr (tighten_blank_feed blank other rest)
        (content ++ List.replicate closing quote.char)
      simpa using tightened
  | longEscape quote =>
      rw [step_longEscape, step_longEscape, step_long (noBreak quote) (by decide)]
      refine ⟨rfl, ?_, rfl⟩
      intro rest
      have tightened := tighten_append_congr (tighten_blank_feed blank other rest) content
      simpa using tightened

/-- A fourth line feed after three makes no difference. -/
theorem feeds : GatheredAlike ['\n', '\n', '\n', '\n'] ['\n', '\n', '\n'] := by
  have noBreak : ∀ quote : Quote, '\n' ≠ quote.char := Reading.ne_char_of_isBlank (by decide)
  rintro ⟨place, content, contents⟩ closed
  simp only [run_cons, run_nil] at closed ⊢
  cases place with
  | unclosed => exact absurd rfl closed
  | short quote => exact absurd (by cases quote <;> rfl) closed
  | quoteOnce quote => exact absurd (by cases quote <;> rfl) closed
  | shortEscape quote => exact absurd (by cases quote <;> rfl) closed
  | code => exact .refl _
  | comment => exact .refl _
  | quoteTwice quote =>
      rw [step_quoteTwice_feed]
      exact .refl _
  | long quote closing =>
      simp only [step_long (noBreak quote) (show '\n' ≠ '\\' by decide)]
      refine ⟨rfl, ?_, rfl⟩
      intro rest
      have tightened := tighten_append_congr (tighten_feeds rest)
        (content ++ List.replicate closing quote.char)
      simpa using tightened
  | longEscape quote =>
      simp only [step_longEscape, step_long (noBreak quote) (show '\n' ≠ '\\' by decide)]
      refine ⟨rfl, ?_, rfl⟩
      intro rest
      have tightened := tighten_append_congr (tighten_feeds rest) content
      simpa using tightened

/-- The blanks at the end of a line make no difference. -/
theorem trimEnd {line : List Char} (noFeed : '\n' ∉ line) :
    GatheredAlike (ended line) (ended (Text.trimEnd line)) := by
  induction line using List.reverseRecOn with
  | nil => exact refl _
  | append_singleton line c ih =>
      rw [Text.trimEnd_concat]
      split
      · rename_i blank
        have other : c ≠ '\n' := fun same => noFeed (by simp [same])
        have dropped := (refl line).append (blank_feed blank other)
        have shown : ended (line ++ [c]) = line ++ [c, '\n'] := List.append_assoc _ _ _
        rw [shown]
        exact dropped.trans (ih fun feed => noFeed (List.mem_append_left _ feed))
      · exact refl _

/-- The blank lines that exceed the limit make no difference. -/
theorem limitBlanks (blanks : Nat) (lines : List (List Char)) :
    GatheredAlike
      (List.replicate (min blanks blankLimit + 1) '\n' ++ lines.flatMap ended)
      (List.replicate (min blanks blankLimit + 1) '\n' ++
        (limitBlanks blanks lines).flatMap ended) := by
  fun_induction Source.limitBlanks blanks lines with
  | case1 blanks => exact refl _
  | case2 blanks rest below ih =>
      have one : min blanks blankLimit + 1 = min (blanks + 1) blankLimit := by omega
      rw [List.replicate_succ', ← one] at ih
      rw [List.flatMap_cons, List.flatMap_cons, ← List.append_assoc, ← List.append_assoc]
      exact ih
  | case3 blanks rest above ih =>
      have limit : min blanks blankLimit = blankLimit := Nat.min_eq_right (Nat.le_of_not_lt above)
      have same : min (blanks + 1) blankLimit = blankLimit := by omega
      rw [same] at ih
      rw [limit]
      exact (feeds.append (refl (rest.flatMap ended))).trans ih
  | case4 blanks line rest any ih =>
      rw [List.flatMap_cons, List.flatMap_cons, ended, List.append_assoc, List.append_assoc]
      exact (refl _).append ((refl line).append ih)

end GatheredAlike

namespace Gathering

variable {gathering : Gathering} {text : List Char}

/-- A text is gathered like its lines once they are trimmed and their blank lines limited. -/
theorem alike_run_lines (closed : (start.run (text ++ ['\n'])).place ≠ .unclosed) :
    Alike (start.run (text ++ ['\n']))
      (start.run ((limitBlanks 0 (trimmedLines text)).flatMap ended)) := by
  have cut : text ++ ['\n'] = (text.splitOn '\n').flatMap ended := by
    rw [← intercalate_eq_flatMap (List.splitOn_ne_nil _ _), List.intercalate_splitOn]
  have trimmed : GatheredAlike ((text.splitOn '\n').flatMap ended)
      ((trimmedLines text).flatMap ended) := by
    rw [trimmedLines, List.flatMap_map]
    exact .flatMap fun line member => .trimEnd fun feed => (mem_of_mem_splitOn member feed).2 rfl
  have limited := GatheredAlike.limitBlanks 0 (trimmedLines text)
  -- a line feed before a text of code is no part of its strings
  have whole := ((GatheredAlike.refl ['\n']).append trimmed).trans limited
  rw [cut] at closed ⊢
  exact whole start closed

/-! ## The end of a text -/

theorem run_feeds_of_code (inCode : gathering.place = .code) (count : Nat) :
    gathering.run (List.replicate count '\n') = gathering := by
  obtain ⟨place, content, contents⟩ := gathering
  cases inCode
  induction count with
  | zero => rfl
  | succ count ih => exact ih

theorem next_feed_of_next_feed {place : Place} (inCode : (place.next '\n').next '\n' = .code) :
    place.next '\n' = .code := by
  cases place with
  | code => rfl
  | comment => rfl
  | quoteTwice quote => cases quote <;> rfl
  | unclosed => cases inCode
  | quoteOnce quote => cases quote <;> cases inCode
  | short quote => cases quote <;> cases inCode
  | shortEscape quote => cases quote <;> cases inCode
  | long quote closing => cases quote <;> cases inCode
  | longEscape quote => cases quote <;> cases inCode

/-- If there is code behind some line feeds, there is code behind the first of them. -/
theorem code_of_run_feeds (count : Nat)
    (inCode : ((gathering.step '\n').run (List.replicate count '\n')).place = .code) :
    (gathering.step '\n').place = .code := by
  induction count generalizing gathering with
  | zero => exact inCode
  | succ count ih =>
      have later : ((gathering.step '\n').step '\n').place = .code := ih inCode
      rw [place_step, place_step] at later
      rw [place_step]
      exact next_feed_of_next_feed later

/-- What is laid out is gathered like its lines before the blank ones at the end are dropped. -/
theorem run_tidyOf
    (inCode : (start.run ((limitBlanks 0 (trimmedLines text)).flatMap ended)).place = .code) :
    start.run (tidyOf text) = start.run ((limitBlanks 0 (trimmedLines text)).flatMap ended) := by
  obtain ⟨count, split⟩ := exists_tidyLines_append text
  have longer : start.run ((limitBlanks 0 (trimmedLines text)).flatMap ended) =
      (start.run (tidyOf text)).run (List.replicate count '\n') := by
    rw [split, run_append, tidyOf_eq]
    split
    · rename_i none
      rw [none]
      rfl
    · rfl
  have last : start.run (tidyOf text) =
      (start.run (['\n'].intercalate (tidyLines text))).step '\n' := run_append _ _ _
  rw [longer] at inCode ⊢
  rw [last] at inCode
  have here := code_of_run_feeds count inCode
  rw [← last] at here
  exact (run_feeds_of_code here count).symm

end Gathering

/-- Laying a text out keeps its strings and tightens their contents. -/
theorem stringsOf_tidyOf {text : List Char} {contents : List (List Char)}
    (read : stringsOf text = some contents) :
    stringsOf (tidyOf text) = some (contents.map tighten) := by
  obtain ⟨inCode, rfl⟩ := stringsOf_eq_some.mp read
  have closed : (Gathering.start.run (text ++ ['\n'])).place ≠ .unclosed := by
    rw [inCode]
    decide
  have alike := Gathering.alike_run_lines closed
  have limitedInCode := alike.place.symm.trans inCode
  rw [← Gathering.run_tidyOf limitedInCode] at alike limitedInCode
  have ends : Gathering.start.run (tidyOf text ++ ['\n']) = Gathering.start.run (tidyOf text) := by
    rw [Gathering.run_append]
    exact Gathering.run_feeds_of_code limitedInCode 1
  have tidy : ∀ content ∈ (Gathering.start.run (tidyOf text)).contents, Tidy content :=
    fun content member =>
      (tidy_tidyOf text).of_part ((Gathering.standsIn_run _).contents content member)
  rw [stringsOf_eq_some, ends, alike.contents]
  exact ⟨limitedInCode, (map_tighten_eq_self_iff.mpr tidy).symm⟩

end LexiconCompiler.Source
