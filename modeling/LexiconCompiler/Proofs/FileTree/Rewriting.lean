import LexiconCompiler.Proofs.FileTree.Additions

/-!
# Writing modules again

Once a module stands in a tree, with the directories on the way to it and the marks of its
packages, writing it again makes no node: only the content of its file is replaced. So
modules that all stand can be written in any number without a failure, and the tree keeps
its nodes in their order.
-/

namespace LexiconCompiler

namespace Table

variable {κ α : Type}

theorem filterMap_keys (entries : List (κ × α)) (value? : κ → Option α)
    (finds : ∀ entry ∈ entries, value? entry.1 = some entry.2) :
    (entries.map Prod.fst).filterMap (fun key => (value? key).map (key, ·)) = entries := by
  induction entries with
  | nil => rfl
  | cons entry rest ih =>
      rw [List.forall_mem_cons] at finds
      rw [List.map_cons, List.filterMap_cons, finds.1, ih finds.2]
      rfl

/-- Tables with the same keys in the same order and the same values are the same. -/
theorem eq_of_keys [DecidableEq κ] {first second : Table κ α} (keys : first.keys = second.keys)
    (values : ∀ key ∈ first.keys, first.get? key = second.get? key) : first = second := by
  have spelled : ∀ table : Table κ α,
      table.keys.filterMap (fun key => (table.get? key).map (key, ·)) = table.entries := by
    intro table
    exact filterMap_keys table.entries table.get? fun _ member => get?_eq_some_iff.mpr member
  apply Table.ext
  rw [← spelled first, ← spelled second, ← keys]
  apply List.filterMap_congr
  intro key member
  rw [values key member]

end Table

/-- A host takes what it is given of a module: the output root and the source. -/
structure Host.Accepts (host : Host) (root : Path) (source : String) : Prop where
  root : host.firstRefusal? root.parts = none
  text : host.textCodec.takes source = true

namespace FileTree

variable {tree before after : FileTree} {root path : Path} {location : Location}
  {content : List UInt8}

/-- Trees with the same nodes in the same order are the same. -/
theorem eq_of_keys (host : after.host = before.host)
    (keys : after.nodes.keys = before.nodes.keys)
    (values : ∀ location, after.get? location = before.get? location)
    (seen : after.workingDirectory = before.workingDirectory) : after = before := by
  have nodes : after.nodes = before.nodes := by
    apply Table.eq_of_keys keys
    intro location member
    have stands := values location
    rw [get?, get?, nodeAt, nodeAt, if_neg (after.named location member).1,
      if_neg (after.named location member).1] at stands
    exact stands
  cases after
  cases before
  cases host
  cases nodes
  cases seen
  rfl

/-- A file that is put in the place of another keeps the nodes in their order. -/
theorem keys_put_of_file {admits : tree.Admits location (.file content)} {earlier : List UInt8}
    (stands : tree.get? location = some (.file earlier)) :
    (tree.put location (.file content) admits).nodes.keys = tree.nodes.keys := by
  have member : location ∈ tree.nodes.keys := by
    rw [get?, nodeAt, if_neg admits.1.1] at stands
    exact Table.isSome_get?_iff.mp (by rw [stands]; rfl)
  rw [put, Table.keys_insert, if_pos member]

/-! ## Directories on the way -/

theorem walk_append {here : Location} {first second : List String} :
    tree.walk here (first ++ second) = .ok location ↔
      ∃ middle, tree.walk here first = .ok middle ∧ tree.walk middle second = .ok location := by
  induction first generalizing here with
  | nil => simp [walk]
  | cons part rest ih =>
      rw [List.cons_append, walk, walk]
      split
      · exact ih
      · simp
      · simp

/-- A path leads on from where its first parts lead. -/
theorem locate_append {first second : List String} :
    tree.locate { path with parts := first ++ second } = .ok location ↔
      tree.host.refusal? second = none ∧
        ∃ middle, tree.locate { path with parts := first } = .ok middle ∧
          tree.walk middle second = .ok location := by
  simp only [locate_eq_ok_iff, Host.refusal?_append]
  constructor
  · rintro ⟨⟨early, late⟩, walks⟩
    obtain ⟨middle, arrives, goesOn⟩ := walk_append.mp walks
    exact ⟨late, middle, ⟨early, arrives⟩, goesOn⟩
  · rintro ⟨late, middle, ⟨early, arrives⟩, goesOn⟩
    exact ⟨⟨early, late⟩, walk_append.mpr ⟨middle, arrives, goesOn⟩⟩

/-- Where a path leads somewhere, its first parts lead to directories. -/
theorem isDirectory_of_onWay (leads : tree.locate path = .ok location)
    {other : Location} (onWay : tree.OnWay path other) :
    tree.get? other = some .directory := by
  obtain ⟨count, few, rfl⟩ := onWay
  have split : path = { path with parts := path.parts.take count ++ path.parts.drop count } := by
    rw [List.take_append_drop]
  rw [split, locate_append] at leads
  obtain ⟨-, middle, arrives, late⟩ := leads
  have spelled : middle = tree.resolve (path.take count) := eq_resolve_of_locate arrives
  rw [List.drop_eq_getElem_cons few, walk] at late
  split at late
  · rename_i stands
    rw [← spelled]
    exact stands
  · cases late
  · cases late

/-! ## Modules that stand -/

theorem accepts_of_writeModule {source : String}
    (finished : writeModule root path source tree = (.ok (), after)) :
    tree.host.Accepts root source := by
  obtain ⟨housed, made, finished⟩ := Action.andThen_eq_ok finished
  obtain ⟨marked, packaged, finished⟩ := Action.andThen_eq_ok finished
  obtain ⟨last, written, finished⟩ := Action.andThen_eq_ok finished
  have houses := (preserves_ensureFirst _ _ _).grows made
  have packages := (preserves_ensurePackages root path.parent).grows packaged
  constructor
  · rw [← houses.host]
    exact (ensurePackages_eq_ok packaged).1
  · rw [← houses.host, ← packages.host]
    exact (writeText_eq_ok written).1

/-- A module stands where its path leads, among packages with marks. -/
structure Houses (root path : Path) (tree : FileTree) : Prop where
  leads : tree.locate path = .ok (tree.resolve path)
  stands : ∃ content, tree.get? (tree.resolve path) = some (.file content)
  packaged : ∀ package, tree.IsPackage root path package →
    tree.get? (package ++ [packageMark]) ≠ none

namespace Houses

/-- A module goes on standing when some file is put. -/
theorem put (houses : Houses root path tree) (admits : tree.Admits location (.file content)) :
    Houses root path (tree.put location (.file content) admits) := by
  have grows := grows_put_file admits
  have spells := resolve_congr grows.workingDirectory
  refine ⟨?_, ?_, ?_⟩
  · rw [spells]
    exact grows.locate houses.leads
  · obtain ⟨other, stands⟩ := houses.stands
    rw [spells, get?_put]
    split
    · exact ⟨content, rfl⟩
    · exact ⟨other, stands⟩
  · intro package inside
    rw [IsPackage, spells, spells] at inside
    rw [get?_put]
    split
    · exact Option.some_ne_none _
    · exact houses.packaged package inside

/-- The file of a module that stands may be written. -/
theorem admits (houses : Houses root path tree) (content : List UInt8) :
    tree.Admits (tree.resolve path) (.file content) := by
  obtain ⟨earlier, stands⟩ := houses.stands
  have named : tree.resolve path ≠ [] := by
    intro top
    rw [top, get?_nil] at stands
    cases stands
  have member : tree.resolve path ∈ tree.nodes.keys := by
    rw [get?, nodeAt, if_neg named] at stands
    exact Table.isSome_get?_iff.mp (by rw [stands]; rfl)
  refine ⟨tree.named _ member, tree.housed _ member, ?_⟩
  intro impossible
  rw [stands] at impossible
  cases impossible

theorem isDirectory_parent (houses : Houses root path tree) (named : NamesFile path) :
    tree.isDirectory path.parent = true := by
  obtain ⟨name, split, valid⟩ := named
  have whole : path = { path with parts := path.parent.parts ++ [name] } := by
    rw [← split]
  have leads := houses.leads
  rw [whole, locate_append] at leads
  obtain ⟨-, middle, early, late⟩ := leads
  rw [walk] at late
  split at late
  · rename_i stands
    have found : tree.find? path.parent = some .directory := by
      rw [find?, show tree.locate path.parent = .ok middle from early]
      exact stands
    rw [isDirectory, found]
    rfl
  · cases late
  · cases late

end Houses

/-! ## Actions -/

theorem makeDirectory_of_isDirectory (stands : tree.isDirectory path = true) :
    tree.makeDirectory path = .error .exists := by
  rw [isDirectory, beq_iff_eq, find?] at stands
  split at stands
  · rename_i location leads
    rw [makeDirectory, leads]
    have present : tree.get? location ≠ none := by simp [stands]
    exact if_pos present
  · cases stands

theorem ensureDirectory_of_isDirectory (stands : tree.isDirectory path = true) :
    ensureDirectory path tree = (.ok (), tree) := by
  rw [ensureDirectory, makeDirectory_of_isDirectory stands]
  exact if_pos stands

/-- No directory is made if the last one stands. -/
theorem ensureDirectories_of_isDirectory (stands : tree.isDirectory path = true) :
    ensureDirectories path tree = (.ok (), tree) := by
  have whole : path.take path.parts.length = path := by
    rw [Path.take, List.take_length]
  simp only [ensureDirectories]
  cases count : path.parts.length with
  | zero =>
      rw [count] at whole
      rw [ensureFirst, whole]
      exact ensureDirectory_of_isDirectory stands
  | succ count =>
      rw [count] at whole
      simp only [ensureFirst, whole, makeDirectory_of_isDirectory stands]
      exact ensureDirectory_of_isDirectory stands

/-- Actions that do nothing do nothing one after another. -/
theorem inOrder_of_idle {actions : List (Action Unit)}
    (idle : ∀ action ∈ actions, action tree = (.ok (), tree)) :
    Action.inOrder actions tree = (.ok (), tree) := by
  induction actions with
  | nil => rfl
  | cons first rest ih =>
      rw [List.forall_mem_cons] at idle
      rw [Action.inOrder, Action.andThen, idle.1]
      exact ih idle.2

theorem ensurePackages_of_houses (houses : Houses root path tree) (named : NamesFile path)
    (taken : tree.host.firstRefusal? root.parts = none) :
    ensurePackages root path.parent tree = (.ok (), tree) := by
  rw [ensurePackages, taken]
  apply inOrder_of_idle
  intro action member
  obtain ⟨package, inside, rfl⟩ := List.mem_map.mp member
  rw [mem_packages_iff, resolve_parent named] at inside
  rw [ensureFileAt, if_neg (houses.packaged package inside)]

/-- A module that stands is written again by replacing the content of its file. -/
theorem writeModule_of_houses {source : String} (houses : Houses root path tree)
    (named : NamesFile path) (accepts : tree.host.Accepts root source) :
    writeModule root path source tree =
      (.ok (), tree.put (tree.resolve path) (.file (Encoding.Utf8.encode source.toList))
        (houses.admits _)) := by
  have written : tree.write path (Encoding.Utf8.encode source.toList) =
      .ok (tree.put (tree.resolve path) (.file (Encoding.Utf8.encode source.toList))
        (houses.admits _)) := by
    rw [write, houses.leads]
    exact dif_pos (houses.admits _)
  have directories := ensureDirectories_of_isDirectory (houses.isDirectory_parent named)
  have packages := ensurePackages_of_houses houses named accepts.root
  simp only [writeModule, Action.inOrder, Action.andThen, directories, packages, writeText,
    accepts.text, if_true, Action.ofStep, written, Action.done]

end FileTree

end LexiconCompiler
