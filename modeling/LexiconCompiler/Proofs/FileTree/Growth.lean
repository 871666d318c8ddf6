import LexiconCompiler.FileTree.Action
import LexiconCompiler.Proofs.Traversal

/-!
# Growth of file trees

The actions that write modules only add to a file tree, apart from the files they are
meant to write: directories stay, and so does the content of every other file. What a
path leads to is therefore the same before and after.
-/

namespace LexiconCompiler.FileTree

/-- A path that leads somewhere is one that the host takes. -/
theorem locate_eq_ok_iff {tree : FileTree} {path : Path} {location : Location} :
    tree.locate path = .ok location ↔ tree.host.refusal? path.parts = none ∧
      tree.walk (tree.start path) path.parts = .ok location := by
  rw [locate]
  cases tree.host.refusal? path.parts <;> simp

/-- A later tree has what an earlier one has, except for the content of some files. -/
structure Grows (rewritten : List Location) (before after : FileTree) : Prop where
  host : after.host = before.host
  workingDirectory : after.workingDirectory = before.workingDirectory
  directories : ∀ location, before.get? location = some .directory →
    after.get? location = some .directory
  files : ∀ location, location ∉ rewritten → ∀ content,
    before.get? location = some (.file content) → after.get? location = some (.file content)

namespace Grows

theorem refl (tree : FileTree) : Grows [] tree tree where
  host := rfl
  workingDirectory := rfl
  directories := fun _ stands => stands
  files := fun _ _ _ stands => stands

theorem trans {first second : List Location} {before middle after : FileTree}
    (early : Grows first before middle) (late : Grows second middle after) :
    Grows (first ++ second) before after where
  host := late.host.trans early.host
  workingDirectory := late.workingDirectory.trans early.workingDirectory
  directories := fun location stands =>
    late.directories location (early.directories location stands)
  files := by
    intro location spared content stands
    rw [List.mem_append, not_or] at spared
    exact late.files location spared.2 content (early.files location spared.1 content stands)

/-- A path leads to the same place in a tree that has grown. -/
theorem locate {rewritten : List Location} {before after : FileTree}
    (grows : Grows rewritten before after) {path : Path} {location : Location}
    (leads : before.locate path = .ok location) : after.locate path = .ok location := by
  have walks : ∀ (parts : List String) (here : Location),
      before.walk here parts = .ok location → after.walk here parts = .ok location := by
    intro parts
    induction parts with
    | nil =>
        intro here arrived
        exact arrived
    | cons part rest ih =>
        intro here arrived
        rw [walk] at arrived
        split at arrived
        · rename_i stands
          rw [walk, grows.directories here stands]
          exact ih (step here part) arrived
        · cases arrived
        · cases arrived
  have starts : after.start path = before.start path := by
    simp only [start, grows.workingDirectory]
  rw [locate_eq_ok_iff] at leads ⊢
  rw [grows.host, starts]
  exact ⟨leads.1, walks path.parts (before.start path) leads.2⟩

end Grows

/-! ## Single steps -/

theorem grows_put_file {tree : FileTree} {location : Location} {content : List UInt8}
    (admits : tree.Admits location (.file content)) :
    Grows [location] tree (tree.put location (.file content) admits) where
  host := rfl
  workingDirectory := rfl
  directories := by
    intro other stands
    have different : other ≠ location := by
      intro same
      rw [same] at stands
      cases admits.2.2 stands
    rw [get?_put, if_neg different]
    exact stands
  files := by
    intro other spared earlier stands
    rw [get?_put, if_neg (by simpa using spared)]
    exact stands

theorem grows_put_of_absent {tree : FileTree} {location : Location} {node : Node}
    (admits : tree.Admits location node) (absent : tree.get? location = none) :
    Grows [] tree (tree.put location node admits) := by
  have kept : ∀ (other : Location) (stood : Node), tree.get? other = some stood →
      (tree.put location node admits).get? other = some stood := by
    intro other stood stands
    have different : other ≠ location := by
      intro same
      rw [same, absent] at stands
      cases stands
    rw [get?_put, if_neg different]
    exact stands
  exact ⟨rfl, rfl, fun other stands => kept other _ stands,
    fun other _ content stands => kept other _ stands⟩

theorem writeAt_eq_ok {tree after : FileTree} {location : Location} {content : List UInt8}
    (written : tree.writeAt location content = .ok after) :
    ∃ admits : tree.Admits location (.file content),
      after = tree.put location (.file content) admits := by
  rw [writeAt] at written
  split at written
  · rename_i admits
    exact ⟨admits, (Except.ok.inj written).symm⟩
  · split at written <;> cases written

/-- A file that is written stands where its path leads. -/
theorem write_eq_ok {tree after : FileTree} {path : Path} {content : List UInt8}
    (written : tree.write path content = .ok after) :
    ∃ location, after.locate path = .ok location ∧
      after.get? location = some (.file content) ∧ Grows [location] tree after := by
  rw [write, Traversal.bind_eq_ok_iff] at written
  obtain ⟨location, leads, written⟩ := written
  obtain ⟨admits, rfl⟩ := writeAt_eq_ok written
  have grows := grows_put_file admits
  refine ⟨location, grows.locate leads, ?_, grows⟩
  rw [get?_put, if_pos rfl]

theorem grows_of_makeDirectory {tree after : FileTree} {path : Path}
    (made : tree.makeDirectory path = .ok after) : Grows [] tree after := by
  rw [makeDirectory, Traversal.bind_eq_ok_iff] at made
  obtain ⟨location, _, made⟩ := made
  split at made
  · cases made
  · rename_i absent
    split at made
    · cases made
      exact grows_put_of_absent _ (not_not.mp absent)
    · cases made

/-! ## Actions -/

namespace Action

/-- An action leaves what is there, whether or not it fails on the way. -/
def Preserves (action : Action Unit) : Prop :=
  ∀ tree, Grows [] tree (action tree).2

theorem preserves_andThen {first second : Action Unit} (early : first.Preserves)
    (late : second.Preserves) : (first.andThen second).Preserves := by
  intro tree
  have grows := early tree
  rw [andThen]
  cases done : first tree with
  | mk result after =>
      rw [done] at grows
      cases result with
      | error error => exact grows
      | ok finished => exact grows.trans (late after)

theorem preserves_inOrder {actions : List (Action Unit)}
    (all : ∀ action ∈ actions, action.Preserves) : (inOrder actions).Preserves := by
  induction actions with
  | nil => exact Grows.refl
  | cons first rest ih =>
      have later := ih fun action member => all action (List.mem_cons_of_mem _ member)
      exact preserves_andThen (all first List.mem_cons_self) later

theorem andThen_eq_ok {first second : Action Unit} {tree after : FileTree}
    (finished : first.andThen second tree = (.ok (), after)) :
    ∃ middle, first tree = (.ok (), middle) ∧ second middle = (.ok (), after) := by
  rw [andThen] at finished
  split at finished
  · rename_i middle done
    exact ⟨middle, done, finished⟩
  · cases finished

theorem ofStep_eq_ok {step : FileTree → Except FileError FileTree} {tree after : FileTree}
    (finished : ofStep step tree = (.ok (), after)) : step tree = .ok after := by
  rw [ofStep] at finished
  split at finished
  · rename_i other done
    cases finished
    exact done
  · cases finished

theorem Preserves.grows {action : Action Unit} (preserves : action.Preserves)
    {tree after : FileTree} {result : Except FileError Unit}
    (finished : action tree = (result, after)) : Grows [] tree after := by
  have grows := preserves tree
  rw [finished] at grows
  exact grows

end Action

theorem preserves_ensureDirectory (path : Path) : (ensureDirectory path).Preserves := by
  intro tree
  rw [ensureDirectory]
  split
  · rename_i after made
    exact grows_of_makeDirectory made
  · split <;> exact Grows.refl tree

theorem preserves_fail (error : FileError) : (Action.fail error).Preserves :=
  Grows.refl

theorem preserves_ensureFirst (path : Path) (count missing : Nat) :
    (ensureFirst path count missing).Preserves := by
  induction count generalizing missing with
  | zero => exact preserves_ensureDirectory _
  | succ count ih =>
      intro tree
      simp only [ensureFirst]
      split
      · split
        · exact preserves_fail _ tree
        · exact Action.preserves_andThen (ih _) (preserves_ensureDirectory _) tree
      · exact preserves_ensureDirectory _ tree

theorem preserves_ensureFileAt (location : Location) : (ensureFileAt location).Preserves := by
  intro tree
  rw [ensureFileAt]
  split
  · rename_i absent
    rw [Action.ofStep]
    split
    · rename_i after written
      obtain ⟨admits, rfl⟩ := writeAt_eq_ok written
      exact grows_put_of_absent admits absent
    · exact Grows.refl tree
  · exact Grows.refl tree

theorem preserves_ensurePackages (root directory : Path) :
    (ensurePackages root directory).Preserves := by
  intro tree
  rw [ensurePackages]
  split
  · exact preserves_fail _ tree
  · refine Action.preserves_inOrder ?_ tree
    intro action member
    obtain ⟨package, _, rfl⟩ := List.mem_map.mp member
    exact preserves_ensureFileAt _

/-- A text that is written is encoded. -/
theorem writeText_eq_ok {path : Path} {text : String} {tree after : FileTree}
    (finished : writeText path text tree = (.ok (), after)) :
    tree.host.textCodec.takes text = true ∧
      tree.write path (Encoding.Utf8.encode text.toList) = .ok after := by
  rw [writeText] at finished
  split at finished
  · rename_i taken
    exact ⟨taken, Action.ofStep_eq_ok finished⟩
  · obtain ⟨middle, _, failed⟩ := Action.andThen_eq_ok finished
    cases failed

/-- A module that is written stands where its path leads, and nothing else is rewritten. -/
theorem writeModule_eq_ok {root path : Path} {source : String} {tree after : FileTree}
    (finished : writeModule root path source tree = (.ok (), after)) :
    ∃ location, after.locate path = .ok location ∧
      after.get? location = some (.file (Encoding.Utf8.encode source.toList)) ∧
      Grows [location] tree after := by
  obtain ⟨housed, made, finished⟩ := Action.andThen_eq_ok finished
  obtain ⟨marked, packaged, finished⟩ := Action.andThen_eq_ok finished
  obtain ⟨last, written, finished⟩ := Action.andThen_eq_ok finished
  cases finished
  obtain ⟨location, leads, stands, rewrites⟩ := write_eq_ok (writeText_eq_ok written).2
  have houses := (preserves_ensureFirst _ _ _).grows made
  have packages := (preserves_ensurePackages root path.parent).grows packaged
  exact ⟨location, leads, stands, (houses.trans packages).trans rewrites⟩

end LexiconCompiler.FileTree
