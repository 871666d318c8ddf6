import LexiconCompiler.Proofs.FileTree.Additions

/-!
# Refusals

An operation on files fails with what the system reports about them, or it is refused before
the system is asked: a path holds the null character or cannot be encoded, too many
directories are missing, or a text cannot be encoded. This module says of each action that
takes part in writing a module exactly when it is refused, and puts the answers together for
the module.
-/

namespace LexiconCompiler

variable {α β : Type} {host : Host} {parts : List String} {error other : FileError}

/-! ## Paths that are refused -/

/-- An operation ends with an error that the system does not report. -/
def Refused (outcome : Except FileError α) (error : FileError) : Prop :=
  outcome = .error error ∧ error.fromSystem = false

@[simp] theorem not_refused_ok {value : α} : ¬ Refused (.ok value) error := by
  simp [Refused]

theorem refused_error_iff :
    Refused (.error other : Except FileError α) error ↔
      other = error ∧ other.fromSystem = false := by
  simp only [Refused, Except.error.injEq]
  constructor
  · rintro ⟨rfl, beyond⟩
    exact ⟨rfl, beyond⟩
  · rintro ⟨rfl, beyond⟩
    exact ⟨rfl, beyond⟩

theorem refused_bind_iff {first : Except FileError α} {next : α → Except FileError β}
    (safe : ∀ value, ¬ Refused (next value) error) :
    Refused (first >>= next) error ↔ Refused first error := by
  cases first with
  | error other => exact refused_error_iff.trans refused_error_iff.symm
  | ok value => exact iff_of_false (safe value) not_refused_ok

namespace FileError

/-- Some text holds what an error is about: the null character, or a stand-in. -/
def SeenIn (error : FileError) (texts : List String) : Prop :=
  (error = .nullByte ∧ ∃ text ∈ texts, holdsNull text = true) ∨
    (error = .unencodable ∧ ∃ text ∈ texts, ∃ c ∈ text.toList, Text.isStandIn c = true)

theorem SeenIn.mono {texts others : List String} (seen : error.SeenIn texts)
    (among : texts ⊆ others) : error.SeenIn others := by
  apply seen.imp
  · rintro ⟨same, text, member, held⟩
    exact ⟨same, text, among member, held⟩
  · rintro ⟨same, text, member, standIn⟩
    exact ⟨same, text, among member, standIn⟩

theorem SeenIn.fromSystem_eq_false {texts : List String} (seen : error.SeenIn texts) :
    error.fromSystem = false := by
  rcases seen with ⟨rfl, _⟩ | ⟨rfl, _⟩ <;> rfl

end FileError

namespace Host

/-- What parts are refused for can be seen from their characters. -/
theorem seenIn_of_refusal? (refused : host.refusal? parts = some error) :
    error.SeenIn parts := by
  rw [refusal?] at refused
  split at refused
  · rename_i untaken
    cases refused
    rw [Bool.not_eq_true', List.all_eq_false] at untaken
    obtain ⟨part, member, refuses⟩ := untaken
    exact .inr ⟨rfl, part, member,
      Codec.exists_isStandIn_of_takes (Bool.eq_false_iff.mpr refuses)⟩
  · split at refused
    · rename_i held
      cases refused
      exact .inl ⟨rfl, List.any_eq_true.mp held⟩
    · cases refused

theorem seenIn_of_firstRefusal? (refused : host.firstRefusal? parts = some error) :
    error.SeenIn parts := by
  obtain ⟨part, member, refuses⟩ := List.exists_of_findSome?_eq_some refused
  exact (seenIn_of_refusal? refuses).mono (by simpa using member)

end Host

namespace FileTree

variable {tree after : FileTree} {root path : Path} {location : Location}
  {content : List UInt8} {source : String}

/-! ## Single steps -/

/-- A path that is followed leads somewhere, or the system reports why it does not. -/
theorem not_refused_walk {here : Location} : ¬ Refused (tree.walk here parts) error := by
  induction parts generalizing here with
  | nil => exact not_refused_ok
  | cons part rest ih =>
      rw [walk]
      split
      · exact ih
      · simp [refused_error_iff, FileError.fromSystem]
      · simp [refused_error_iff, FileError.fromSystem]

theorem refused_locate_iff :
    Refused (tree.locate path) error ↔ tree.host.refusal? path.parts = some error := by
  rw [locate]
  cases refused : tree.host.refusal? path.parts with
  | none => exact iff_of_false not_refused_walk (by simp)
  | some other =>
      rw [refused_error_iff, Option.some.injEq]
      exact and_iff_left (Host.seenIn_of_refusal? refused).fromSystem_eq_false

theorem not_refused_writeAt : ¬ Refused (tree.writeAt location content) error := by
  rw [writeAt]
  split
  · exact not_refused_ok
  · split <;> simp [refused_error_iff, FileError.fromSystem]

theorem refused_write_iff :
    Refused (tree.write path content) error ↔
      tree.host.refusal? path.parts = some error := by
  rw [write, refused_bind_iff fun location => not_refused_writeAt, refused_locate_iff]

theorem refused_makeDirectory_iff :
    Refused (tree.makeDirectory path) error ↔
      tree.host.refusal? path.parts = some error := by
  rw [makeDirectory, refused_bind_iff, refused_locate_iff]
  intro location
  split
  · simp [refused_error_iff, FileError.fromSystem]
  · split
    · exact not_refused_ok
    · simp [refused_error_iff, FileError.fromSystem]

/-- A directory that cannot be found for lack of another has a path that is taken. -/
theorem refusal?_of_notFound (absent : tree.makeDirectory path = .error .notFound) :
    tree.host.refusal? path.parts = none := by
  cases refused : tree.host.refusal? path.parts with
  | none => rfl
  | some error =>
      obtain ⟨failed, beyond⟩ := refused_makeDirectory_iff.mpr refused
      cases absent.symm.trans failed
      cases beyond

theorem isDirectory_of_refusal? (refused : tree.host.refusal? path.parts = some error) :
    tree.isDirectory path = false := by
  rw [isDirectory, find?, (refused_locate_iff.mpr refused).1]
  rfl

/-! ## Actions -/

/-- One action after another is refused if the first is, or the second is after it. -/
theorem refused_andThen_iff {first second : Action Unit} :
    Refused (first.andThen second tree).1 error ↔ Refused (first tree).1 error ∨
      ∃ middle, first tree = (.ok (), middle) ∧ Refused (second middle).1 error := by
  rw [Action.andThen]
  cases ran : first tree with
  | mk result middle =>
      cases result with
      | error other => simp
      | ok done => simp

theorem refused_ofStep_iff {step : FileTree → Except FileError FileTree} :
    Refused (Action.ofStep step tree).1 error ↔ Refused (step tree) error := by
  rw [Action.ofStep]
  cases step tree with
  | error other => simp only [refused_error_iff]
  | ok after => simp

theorem refused_ensureDirectory_iff :
    Refused (ensureDirectory path tree).1 error ↔
      tree.host.refusal? path.parts = some error := by
  rw [← refused_makeDirectory_iff, ensureDirectory]
  cases made : tree.makeDirectory path with
  | ok after => simp
  | error other =>
      dsimp only
      split
      · rename_i stands
        refine iff_of_false not_refused_ok ?_
        rw [← made, refused_makeDirectory_iff]
        intro refused
        rw [isDirectory_of_refusal? refused] at stands
        cases stands
      · simp only [refused_error_iff]

/-- More directories are missing on the way to a path than may be, from the one of its first
parts upward. -/
def LacksDirectories (tree : FileTree) (path : Path) (count missing : Nat) : Prop :=
  ∀ few ≤ missing, few < count ∧
    tree.makeDirectory (path.take (count - few)) = .error .notFound

theorem lacksDirectories_succ {count missing : Nat}
    (absent : tree.makeDirectory (path.take (count + 1)) = .error .notFound) :
    LacksDirectories tree path (count + 1) (missing + 1) ↔
      LacksDirectories tree path count missing := by
  constructor
  · intro lacks few small
    obtain ⟨fewer, lost⟩ := lacks (few + 1) (Nat.succ_le_succ small)
    rw [Nat.add_sub_add_right] at lost
    exact ⟨Nat.lt_of_succ_lt_succ fewer, lost⟩
  · intro lacks few small
    cases few with
    | zero => exact ⟨Nat.succ_pos count, absent⟩
    | succ few =>
        obtain ⟨fewer, lost⟩ := lacks few (Nat.le_of_succ_le_succ small)
        rw [Nat.add_sub_add_right]
        exact ⟨Nat.succ_lt_succ fewer, lost⟩

/-- Directories are refused for a part of the path, or because too many are missing. -/
theorem refused_ensureFirst_iff {count missing : Nat} :
    Refused (ensureFirst path count missing tree).1 error ↔
      tree.host.refusal? (path.take count).parts = some error ∨
        error = .tooManyMissing ∧ LacksDirectories tree path count missing := by
  induction count generalizing missing with
  | zero =>
      have none : ¬ LacksDirectories tree path 0 missing :=
        fun lacks => Nat.not_lt_zero _ (lacks 0 (Nat.zero_le _)).1
      simp only [ensureFirst, refused_ensureDirectory_iff, none, and_false, or_false]
  | succ count ih =>
      simp only [ensureFirst]
      split
      · rename_i absent
        have taken := refusal?_of_notFound absent
        have shorter : (path.take (count + 1)).parts =
            (path.take count).parts ++ path.parts[count]?.toList :=
          List.take_add_one
        have above := (Host.refusal?_append.mp (shorter ▸ taken)).1
        rw [taken]
        simp only [reduceCtorEq, false_or]
        split
        · rename_i exhausted
          rw [exhausted, Action.fail, refused_error_iff]
          have lacks : LacksDirectories tree path (count + 1) 0 := by
            intro few small
            rw [Nat.le_zero.mp small]
            exact ⟨Nat.succ_pos count, absent⟩
          simp only [FileError.fromSystem, lacks, and_true, eq_comm]
        · rename_i spare
          obtain ⟨rest, rfl⟩ := Nat.exists_eq_succ_of_ne_zero spare
          rw [refused_andThen_iff, Nat.succ_sub_one, ih, above,
            lacksDirectories_succ absent]
          simp only [reduceCtorEq, false_or, or_iff_left_iff_imp]
          rintro ⟨middle, made, refused⟩
          have grows := (preserves_ensureFirst path count rest).grows made
          rw [refused_ensureDirectory_iff, grows.host, taken] at refused
          cases refused
      · rename_i present
        rw [refused_ensureDirectory_iff, or_iff_left]
        rintro ⟨-, lacks⟩
        exact present (lacks 0 (Nat.zero_le _)).2

theorem refused_ensureDirectories_iff :
    Refused (ensureDirectories path tree).1 error ↔
      tree.host.refusal? path.parts = some error ∨ error = .tooManyMissing ∧
        LacksDirectories tree path path.parts.length tree.host.missingLimit := by
  simp only [ensureDirectories, refused_ensureFirst_iff, Path.take, List.take_length]

theorem not_refused_ensureFiles {packages : List Location} :
    ¬ Refused (Action.inOrder (packages.map fun package =>
      ensureFileAt (package ++ [packageMark])) tree).1 error := by
  induction packages generalizing tree with
  | nil => exact not_refused_ok
  | cons package rest ih =>
      rw [List.map_cons, Action.inOrder, refused_andThen_iff]
      rintro (first | ⟨middle, _, later⟩)
      · rw [ensureFileAt] at first
        split at first
        · exact not_refused_writeAt (refused_ofStep_iff.mp first)
        · exact not_refused_ok first
      · exact ih later

theorem refused_ensurePackages_iff {directory : Path} :
    Refused (ensurePackages root directory tree).1 error ↔
      tree.host.firstRefusal? root.parts = some error := by
  rw [ensurePackages]
  cases refused : tree.host.firstRefusal? root.parts with
  | none => exact iff_of_false not_refused_ensureFiles (by simp)
  | some other =>
      dsimp only [Action.fail]
      rw [refused_error_iff, Option.some.injEq]
      exact and_iff_left (Host.seenIn_of_firstRefusal? refused).fromSystem_eq_false

/-- A text is refused for its path, or once its file is open. -/
theorem refused_writeText_iff :
    Refused (writeText path source tree).1 error ↔
      tree.host.refusal? path.parts = some error ∨
        error = .unencodable ∧ tree.host.textCodec.takes source = false ∧
          ∃ opened, tree.write path [] = .ok opened := by
  rw [writeText]
  split
  · rename_i taken
    simp [refused_ofStep_iff, refused_write_iff, taken]
  · rename_i untaken
    rw [refused_andThen_iff, refused_ofStep_iff, refused_write_iff]
    apply or_congr_right
    simp only [Action.fail, refused_error_iff, FileError.fromSystem, and_true,
      Bool.eq_false_iff.mpr untaken, true_and]
    constructor
    · rintro ⟨middle, opened, same⟩
      exact ⟨same.symm, middle, Action.ofStep_eq_ok opened⟩
    · rintro ⟨same, opened, written⟩
      exact ⟨opened, by simp only [Action.ofStep, written], same.symm⟩

/-! ## Modules -/

/-- Why a module is refused that is to be written below a root. The reasons are tried in this
order, the root only once the directories stand, and the source only once an empty module
could be written in its place. -/
inductive RefusesModule (tree : FileTree) (root path : Path) (source : String) :
    FileError → Prop where
  | directory {error : FileError}
      (refused : tree.host.refusal? path.parent.parts = some error) :
      RefusesModule tree root path source error
  | missing (lacks : LacksDirectories tree path.parent path.parent.parts.length
        tree.host.missingLimit) :
      RefusesModule tree root path source .tooManyMissing
  | root {error : FileError} (made : (ensureDirectories path.parent tree).1 = .ok ())
      (refused : tree.host.firstRefusal? root.parts = some error) :
      RefusesModule tree root path source error
  | source (opened : (writeModule root path "" tree).1 = .ok ())
      (refused : tree.host.textCodec.takes source = false) :
      RefusesModule tree root path source .unencodable

/-- What happens before the file of a module is opened: its directories are made and become
packages. -/
def Prepared (tree : FileTree) (root path : Path) (housed packaged : FileTree) : Prop :=
  ensureDirectories path.parent tree = (.ok (), housed) ∧
    ensurePackages root path.parent housed = (.ok (), packaged)

theorem Prepared.host_eq {housed packaged : FileTree}
    (prepared : Prepared tree root path housed packaged) : packaged.host = tree.host := by
  have houses := (preserves_ensureFirst _ _ _).grows prepared.1
  have packages := (preserves_ensurePackages root path.parent).grows prepared.2
  rw [packages.host, houses.host]

/-- An empty module can be written exactly if its file can be opened once the directories are
prepared. -/
theorem writeModule_empty_iff :
    (writeModule root path "" tree).1 = .ok () ↔ ∃ housed packaged opened,
      Prepared tree root path housed packaged ∧ packaged.write path [] = .ok opened := by
  constructor
  · intro finished
    obtain ⟨housed, made, rest⟩ := Action.andThen_eq_ok (Prod.ext finished rfl)
    obtain ⟨packaged, complete, rest⟩ := Action.andThen_eq_ok rest
    obtain ⟨opened, written, _⟩ := Action.andThen_eq_ok rest
    exact ⟨housed, packaged, opened, ⟨made, complete⟩, (writeText_eq_ok written).2⟩
  · rintro ⟨housed, packaged, opened, ⟨made, complete⟩, written⟩
    have text : writeText path "" packaged = (.ok (), opened) := by
      have taken : packaged.host.textCodec.takes "" = true := rfl
      rw [writeText, if_pos taken]
      simp only [Action.ofStep, String.toList_empty, Encoding.Utf8.encode, List.flatMap_nil,
        written]
    simp only [writeModule, Action.inOrder, Action.andThen, made, complete, text, Action.done]

/-- A module is refused with the directories, with the marks of packages, or with the text. -/
theorem refused_writeModule :
    Refused (writeModule root path source tree).1 error ↔
      Refused (ensureDirectories path.parent tree).1 error ∨
      (∃ housed, ensureDirectories path.parent tree = (.ok (), housed) ∧
        Refused (ensurePackages root path.parent housed).1 error) ∨
      ∃ housed packaged, Prepared tree root path housed packaged ∧
        Refused (writeText path source packaged).1 error := by
  simp only [writeModule, Action.inOrder, refused_andThen_iff, Action.done, not_refused_ok,
    and_false, exists_false, or_false, Prepared, and_assoc, and_or_left, exists_or,
    exists_and_left]

/-- A module whose file has a name is refused exactly for one of the reasons. -/
theorem refused_writeModule_iff {name : String}
    (split : path.parts = path.parent.parts ++ [name]) (spelled : tree.host.spells name = true) :
    Refused (writeModule root path source tree).1 error ↔
      RefusesModule tree root path source error := by
  rw [refused_writeModule]
  constructor
  · rintro (refused | ⟨housed, made, refused⟩ | ⟨housed, packaged, prepared, refused⟩)
    · rcases refused_ensureDirectories_iff.mp refused with taken | ⟨rfl, lacks⟩
      · exact .directory taken
      · exact .missing lacks
    · have houses := (preserves_ensureFirst _ _ _).grows made
      rw [refused_ensurePackages_iff, houses.host] at refused
      exact .root (by rw [made]) refused
    · -- the path was taken with the directories, so only the text can be refused
      have taken : tree.host.refusal? path.parts = none := by
        rw [split, Host.refusal?_append]
        refine ⟨?_, by simpa [Host.refusal?_eq_none_iff] using spelled⟩
        cases other : tree.host.refusal? path.parent.parts with
        | none => rfl
        | some error =>
            have impossible := (refused_ensureDirectories_iff.mpr (.inl other)).1
            rw [prepared.1] at impossible
            cases impossible
      rw [refused_writeText_iff, prepared.host_eq, taken] at refused
      rcases refused with impossible | ⟨rfl, untaken, opened, written⟩
      · cases impossible
      · exact .source (writeModule_empty_iff.mpr ⟨_, _, _, prepared, written⟩) untaken
  · rintro (refused | lacks | ⟨made, refused⟩ | ⟨opened, untaken⟩)
    · exact .inl (refused_ensureDirectories_iff.mpr (.inl refused))
    · exact .inl (refused_ensureDirectories_iff.mpr (.inr ⟨rfl, lacks⟩))
    · have made : ensureDirectories path.parent tree = (.ok (), _) := Prod.ext made rfl
      have houses := (preserves_ensureFirst _ _ _).grows made
      refine .inr (.inl ⟨_, made, ?_⟩)
      rw [refused_ensurePackages_iff, houses.host]
      exact refused
    · obtain ⟨housed, packaged, file, prepared, written⟩ := writeModule_empty_iff.mp opened
      refine .inr (.inr ⟨housed, packaged, prepared, ?_⟩)
      rw [refused_writeText_iff, prepared.host_eq]
      exact .inr ⟨rfl, untaken, file, written⟩

/-- A module that is to be written below a root shows what an error is about: in the parts of
its directory or of the root, in its source, or by the depth of its directory. -/
def ShowsError (host : Host) (root path : Path) (source : String) (error : FileError) : Prop :=
  error.SeenIn (root.parts ++ path.parent.parts) ∨
    (error = .unencodable ∧ ∃ c ∈ source.toList, Text.isStandIn c = true) ∨
    (error = .tooManyMissing ∧ host.missingLimit < path.parent.parts.length)

theorem RefusesModule.showsError (refuses : RefusesModule tree root path source error) :
    ShowsError tree.host root path source error := by
  cases refuses with
  | directory refused =>
      exact .inl ((Host.seenIn_of_refusal? refused).mono (List.subset_append_right _ _))
  | missing lacks => exact .inr (.inr ⟨rfl, (lacks _ (Nat.le_refl _)).1⟩)
  | root made refused =>
      exact .inl ((Host.seenIn_of_firstRefusal? refused).mono (List.subset_append_left _ _))
  | source opened refused =>
      exact .inr (.inl ⟨rfl, Codec.exists_isStandIn_of_takes refused⟩)

end FileTree

end LexiconCompiler
