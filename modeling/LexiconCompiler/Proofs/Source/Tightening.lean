import LexiconCompiler.Proofs.Source.Tidying
import LexiconCompiler.Proofs.Text.Parts

/-!
# Tidy texts

A text is tidy if its line feeds have no other blanks right before them and leave no more
blank lines together than the layout does. A text is tightened by taking away what keeps it
from being tidy. A text that is laid out is tidy, and so is every part of it.
-/

namespace LexiconCompiler.Source

/-- A text where line feeds come after no other blanks, and where no more of them stand
together than the blank lines between them may. -/
structure Tidy (text : List Char) : Prop where
  trimmed : ∀ c, Text.isBlank c = true → [c, '\n'] <:+: text → c = '\n'
  limited : ¬ List.replicate (blankLimit + 2) '\n' <:+: text

/-- A character is too much before a text: another blank before a line feed, or one line feed
more than may stand together. -/
def Exceeds (c : Char) (rest : List Char) : Prop :=
  Text.isBlank c = true ∧ c ≠ '\n' ∧ ['\n'] <+: rest ∨
    c = '\n' ∧ List.replicate (blankLimit + 1) '\n' <+: rest

instance (c : Char) (rest : List Char) : Decidable (Exceeds c rest) :=
  inferInstanceAs (Decidable (_ ∨ _))

/-- A text behind a character, unless the character is too much. -/
def tightenChar (c : Char) (rest : List Char) : List Char :=
  if Exceeds c rest then rest else c :: rest

/-- A text without the characters that are too much before what is left behind them. -/
def tighten (text : List Char) : List Char :=
  text.foldr tightenChar []

example : tighten "a \t\n \n\n\n\n b ".toList = "a\n\n\n b ".toList := by decide

variable {c : Char} {front part rest text : List Char}

/-! ## What is tidy already -/

theorem Tidy.nil : Tidy [] where
  trimmed c blank feed := by simp at feed
  limited feeds := by simp at feeds

/-- A part of a tidy text is tidy. -/
theorem Tidy.of_part (tidy : Tidy text) (inside : part <:+: text) : Tidy part where
  trimmed c blank feed := tidy.trimmed c blank (feed.trans inside)
  limited feeds := tidy.limited (feeds.trans inside)

theorem tidy_cons_iff : Tidy (c :: rest) ↔ Tidy rest ∧ ¬ Exceeds c rest := by
  constructor
  · intro tidy
    refine ⟨tidy.of_part (List.infix_cons (List.infix_refl rest)), ?_⟩
    rintro (⟨blank, other, feed⟩ | ⟨rfl, feeds⟩)
    · exact other (tidy.trimmed c blank (List.cons_prefix_cons.mpr ⟨rfl, feed⟩).isInfix)
    · exact tidy.limited (List.cons_prefix_cons.mpr ⟨rfl, feeds⟩).isInfix
  · rintro ⟨tidy, fits⟩
    constructor
    · intro other blank feed
      rcases List.infix_cons_iff.mp feed with here | later
      · obtain ⟨rfl, behind⟩ := List.cons_prefix_cons.mp here
        by_contra differs
        exact fits (.inl ⟨blank, differs, behind⟩)
      · exact tidy.trimmed other blank later
    · intro feeds
      rcases List.infix_cons_iff.mp feeds with here | later
      · obtain ⟨rfl, behind⟩ := List.cons_prefix_cons.mp here
        exact fits (.inr ⟨rfl, behind⟩)
      · exact tidy.limited later

theorem length_tighten_le (text : List Char) : (tighten text).length ≤ text.length := by
  induction text with
  | nil => exact Nat.le_refl 0
  | cons c text ih =>
      rw [tighten, List.foldr_cons, ← tighten, tightenChar]
      split
      · exact Nat.le_succ_of_le ih
      · exact Nat.succ_le_succ ih

/-- Exactly the tidy texts are left as they are. -/
theorem tighten_eq_self_iff : tighten text = text ↔ Tidy text := by
  induction text with
  | nil => exact iff_of_true rfl .nil
  | cons c text ih =>
      have shorter := length_tighten_le text
      rw [tidy_cons_iff, ← ih, tighten, List.foldr_cons, ← tighten, tightenChar]
      split
      · rename_i exceeds
        refine iff_of_false ?_ ?_
        · intro same
          rw [same, List.length_cons] at shorter
          exact absurd shorter (Nat.not_succ_le_self _)
        · rintro ⟨same, fits⟩
          rw [same] at exceeds
          exact fits exceeds
      · rename_i fits
        constructor
        · intro same
          have rest := (List.cons.inj same).2
          rw [rest] at fits
          exact ⟨rest, fits⟩
        · rintro ⟨rest, _⟩
          rw [rest]

theorem map_tighten_eq_self_iff {texts : List (List Char)} :
    texts.map tighten = texts ↔ ∀ text ∈ texts, Tidy text := by
  calc texts.map tighten = texts
      ↔ texts.map tighten = texts.map id := by rw [List.map_id]
    _ ↔ ∀ text ∈ texts, tighten text = id text := List.map_inj_left
    _ ↔ ∀ text ∈ texts, Tidy text := forall₂_congr fun _ _ => tighten_eq_self_iff

instance (text : List Char) : Decidable (Tidy text) :=
  decidable_of_iff _ tighten_eq_self_iff

/-! ## What is taken away -/

/-- What stands before a text is tightened against what is left of the text. -/
theorem tighten_append_congr {first second : List Char} (same : tighten first = tighten second)
    (front : List Char) : tighten (front ++ first) = tighten (front ++ second) := by
  rw [tighten, List.foldr_append, ← tighten, same, tighten, ← List.foldr_append, ← tighten]

/-- A line feed is one more in a row, up to the limit. -/
theorem feeds_tightenChar {count : Nat} (few : count ≤ blankLimit)
    (feeds : List.replicate count '\n' <+: rest) :
    List.replicate (count + 1) '\n' <+: tightenChar '\n' rest := by
  rw [tightenChar]
  split
  · rename_i exceeds
    rcases exceeds with ⟨_, other, _⟩ | ⟨_, many⟩
    · exact absurd rfl other
    · refine List.IsPrefix.trans ⟨List.replicate (blankLimit - count) '\n', ?_⟩ many
      rw [List.replicate_append_replicate]
      congr 1
      omega
  · exact List.cons_prefix_cons.mpr ⟨rfl, feeds⟩

theorem tighten_blank_feed (blank : Text.isBlank c = true) (other : c ≠ '\n')
    (rest : List Char) : tighten (c :: '\n' :: rest) = tighten ('\n' :: rest) := by
  have feed : ['\n'] <+: tighten ('\n' :: rest) :=
    feeds_tightenChar (Nat.zero_le _) List.nil_prefix
  exact if_pos (.inl ⟨blank, other, feed⟩)

theorem tighten_feeds (rest : List Char) :
    tighten ('\n' :: '\n' :: '\n' :: '\n' :: rest) = tighten ('\n' :: '\n' :: '\n' :: rest) := by
  have one : List.replicate 1 '\n' <+: tighten ('\n' :: rest) :=
    feeds_tightenChar (by decide) List.nil_prefix
  have two : List.replicate 2 '\n' <+: tighten ('\n' :: '\n' :: rest) :=
    feeds_tightenChar (by decide) one
  have three : List.replicate 3 '\n' <+: tighten ('\n' :: '\n' :: '\n' :: rest) :=
    feeds_tightenChar (by decide) two
  exact if_pos (.inr ⟨rfl, three⟩)

/-! ## Texts that are laid out -/

/-- Line feeds before a character that is none are there without it. -/
theorem feeds_append_iff (other : c ≠ '\n') (count : Nat) :
    List.replicate count '\n' <+: front ++ c :: rest ↔
      List.replicate count '\n' <+: front := by
  induction front generalizing count with
  | nil =>
      cases count with
      | zero => exact iff_of_true List.nil_prefix List.nil_prefix
      | succ count =>
          rw [List.nil_append, List.replicate_succ, List.cons_prefix_cons]
          exact iff_of_false (fun both => other both.1.symm) (by simp)
  | cons first front ih =>
      cases count with
      | zero => exact iff_of_true List.nil_prefix List.nil_prefix
      | succ count =>
          rw [List.cons_append, List.replicate_succ, List.cons_prefix_cons,
            List.cons_prefix_cons, ih]

theorem not_exceeds_of_solid (solid : Text.isBlank c = false) (rest : List Char) :
    ¬ Exceeds c rest := by
  rintro (⟨blank, _⟩ | ⟨rfl, _⟩)
  · rw [solid] at blank
    cases blank
  · revert solid
    decide

/-- A character that is not blank parts a text into two that are tidy by themselves. -/
theorem tidy_append_cons_iff (solid : Text.isBlank c = false) :
    Tidy (front ++ c :: rest) ↔ Tidy front ∧ Tidy rest := by
  have other : c ≠ '\n' := by
    rintro rfl
    revert solid
    decide
  induction front with
  | nil =>
      rw [List.nil_append, tidy_cons_iff]
      exact ⟨fun both => ⟨.nil, both.1⟩, fun both => ⟨both.2, not_exceeds_of_solid solid rest⟩⟩
  | cons first front ih =>
      have same : Exceeds first (front ++ c :: rest) ↔ Exceeds first front := by
        rw [Exceeds, Exceeds, feeds_append_iff other, ← List.replicate_one,
          feeds_append_iff other]
      rw [List.cons_append, tidy_cons_iff, tidy_cons_iff, same]
      exact (and_congr_left' ih).trans and_right_comm

theorem tidy_of_no_feed (noFeed : '\n' ∉ text) : Tidy text where
  trimmed c _ feed := absurd (feed.subset (by simp)) noFeed
  limited feeds := noFeed (feeds.subset (by decide))

theorem tidy_feeds {count : Nat} (few : count ≤ blankLimit + 1) :
    Tidy (List.replicate count '\n') where
  trimmed c _ feed := List.eq_of_mem_replicate (feed.subset List.mem_cons_self)
  limited feeds := by
    have longer := feeds.length_le
    rw [List.length_replicate, List.length_replicate] at longer
    omega

/-- What ends in a line feed does not reach into a text that has none. -/
theorem infix_feeds_of_append {count : Nat} (noFeed : '\n' ∉ rest)
    (inside : front ++ ['\n'] <:+: List.replicate count '\n' ++ rest) :
    front ++ ['\n'] <:+: List.replicate count '\n' := by
  rcases List.infix_append_iff.mp inside with early | late | ⟨first, second, split, early, late⟩
  · exact early
  · exact absurd (late.subset (by simp)) noFeed
  · rcases List.eq_nil_or_concat second with rfl | ⟨more, last, rfl⟩
    · rw [split, List.append_nil]
      exact early.isInfix
    · rw [List.concat_eq_append, ← List.append_assoc] at split
      have feed : ['\n'] = [last] := List.append_inj_right' split rfl
      cases feed
      exact absurd (late.subset (by simp)) noFeed

theorem tidy_feeds_append {count : Nat} (few : count ≤ blankLimit + 1) (noFeed : '\n' ∉ rest) :
    Tidy (List.replicate count '\n' ++ rest) where
  trimmed c blank feed := by
    have inside : [c] ++ ['\n'] <:+: List.replicate count '\n' :=
      infix_feeds_of_append noFeed feed
    exact (tidy_feeds few).trimmed c blank inside
  limited feeds := by
    rw [List.replicate_succ'] at feeds
    apply (tidy_feeds few).limited
    rw [List.replicate_succ']
    exact infix_feeds_of_append noFeed feeds

/-- A line that is not blank is tidy between line feeds, if those behind it are. -/
theorem tidy_solid_line {line : List Char} (solid : Solid line) (noFeed : '\n' ∉ line)
    {count : Nat} (few : count ≤ blankLimit + 1) (tidy : Tidy ('\n' :: rest)) :
    Tidy (List.replicate count '\n' ++ (line ++ '\n' :: rest)) := by
  obtain ⟨last, ends, notBlank⟩ := Option.map_eq_some_iff.mp solid
  obtain ⟨front, rfl⟩ := List.getLast?_eq_some_iff.mp ends
  have early : '\n' ∉ front := fun feed => noFeed (List.mem_append_left _ feed)
  rw [List.append_assoc, ← List.append_assoc, List.singleton_append,
    tidy_append_cons_iff notBlank]
  exact ⟨tidy_feeds_append few early, tidy⟩

/-- Lines that are trimmed are tidy once their blank lines are limited. -/
theorem tidy_limitBlanks {lines : List (List Char)}
    (trimmed : ∀ line ∈ lines, line = [] ∨ Solid line ∧ '\n' ∉ line) (blanks : Nat) :
    Tidy (List.replicate (min blanks blankLimit + 1) '\n' ++
      (limitBlanks blanks lines).flatMap ended) := by
  have few : ∀ blanks, min blanks blankLimit + 1 ≤ blankLimit + 1 := fun blanks =>
    Nat.succ_le_succ (Nat.min_le_right _ _)
  fun_induction limitBlanks blanks lines with
  | case1 blanks =>
      rw [List.flatMap_nil, List.append_nil]
      exact tidy_feeds (few blanks)
  | case2 blanks rest below ih =>
      have one : min blanks blankLimit + 1 = min (blanks + 1) blankLimit := by omega
      have tidy := ih fun line member => trimmed line (List.mem_cons_of_mem _ member)
      rw [List.replicate_succ', ← one] at tidy
      rw [List.flatMap_cons, ← List.append_assoc]
      exact tidy
  | case3 blanks rest above ih =>
      have same : min blanks blankLimit = min (blanks + 1) blankLimit := by omega
      rw [same]
      exact ih fun line member => trimmed line (List.mem_cons_of_mem _ member)
  | case4 blanks line rest any ih =>
      have tidy := ih fun line member => trimmed line (List.mem_cons_of_mem _ member)
      rw [List.flatMap_cons, ended, List.append_assoc]
      rcases trimmed line List.mem_cons_self with empty | ⟨solid, noFeed⟩
      · exact absurd empty any
      · exact tidy_solid_line solid noFeed (few blanks) tidy

theorem trimEnd_eq_nil_or_solid (line : List Char) :
    Text.trimEnd line = [] ∨ Solid (Text.trimEnd line) := by
  induction line using List.reverseRecOn with
  | nil => exact .inl rfl
  | append_singleton line c ih =>
      rw [Text.trimEnd_concat]
      cases blank : Text.isBlank c with
      | true => exact ih
      | false =>
          right
          change Solid (line ++ [c])
          rw [Solid, List.getLast?_concat, Option.map_some, blank]

/-- The lines of a text, without the blanks at their ends. -/
def trimmedLines (text : List Char) : List (List Char) :=
  (text.splitOn '\n').map Text.trimEnd

theorem solid_of_mem_trimmedLines {line : List Char} (member : line ∈ trimmedLines text) :
    line = [] ∨ Solid line ∧ '\n' ∉ line := by
  obtain ⟨whole, found, rfl⟩ := List.mem_map.mp member
  refine (trimEnd_eq_nil_or_solid whole).imp_right fun solid => ⟨solid, ?_⟩
  intro feed
  obtain ⟨blanks, _, split⟩ := Text.exists_trimEnd_append whole
  have inside : '\n' ∈ whole := by
    rw [split]
    exact List.mem_append_left blanks feed
  exact (mem_of_mem_splitOn found inside).2 rfl

/-- Only line feeds are taken away with the blank lines at the end. -/
theorem exists_tidyLines_append (text : List Char) :
    ∃ count, (limitBlanks 0 (trimmedLines text)).flatMap ended =
      (tidyLines text).flatMap ended ++ List.replicate count '\n' := by
  obtain ⟨count, split⟩ := exists_dropLastBlanks_append (limitBlanks 0 (trimmedLines text))
  refine ⟨count, ?_⟩
  have feeds : (List.replicate count []).flatMap ended = List.replicate count '\n' := by
    rw [List.flatMap_replicate]
    exact List.flatten_replicate_singleton
  rw [← feeds, ← List.flatMap_append]
  exact congrArg (List.flatMap ended) split

theorem tidyOf_eq (text : List Char) :
    tidyOf text = if tidyLines text = [] then ['\n'] else (tidyLines text).flatMap ended := by
  split
  · rename_i none
    rw [tidyOf, none]
    rfl
  · rename_i any
    exact intercalate_eq_flatMap any

theorem tidy_tidyOf (text : List Char) : Tidy (tidyOf text) := by
  have trimmed : ∀ line ∈ trimmedLines text, line = [] ∨ Solid line ∧ '\n' ∉ line :=
    fun _ => solid_of_mem_trimmedLines
  have tidy := tidy_limitBlanks trimmed 0
  obtain ⟨count, split⟩ := exists_tidyLines_append text
  rw [split] at tidy
  rw [tidyOf_eq]
  split
  · exact show Tidy (List.replicate 1 '\n') from tidy_feeds (by decide)
  · rw [← List.append_assoc] at tidy
    exact tidy.of_part (List.infix_append _ _ _)

end LexiconCompiler.Source
