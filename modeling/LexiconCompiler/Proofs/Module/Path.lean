import LexiconCompiler.Module
import LexiconCompiler.Proofs.FileTree.Additions
import LexiconCompiler.Proofs.Name.Snake

/-!
# Paths of modules

The module for an id lies in a directory for the segments of the id but the last, in a
file that is named by the words of the last segment. Nothing else of the last segment is
kept, so different ids can meet on one path.
-/

namespace LexiconCompiler.Module

variable {id first second : String} {root : Path}

/-- The directory that the module for an id lies in. -/
def directory (id : String) (root : Path) : Path :=
  (Name.segments id).dropLast.foldl (fun path name => path.join (.ofString name)) root

/-- The words that name the file for an id. -/
def stem (id : String) : List (List Char) :=
  Name.loweredWords (Name.lastSegment id).toList

/-- Two ids meet if their modules lie in one directory and the last segments have the
same words up to capitals. -/
def Meet (root : Path) (first second : String) : Prop :=
  directory first root = directory second root ∧ stem first = stem second

instance (root : Path) (first second : String) : Decidable (Meet root first second) :=
  inferInstanceAs (Decidable (_ ∧ _))

/-- A text that can name a node is a path of one part. -/
theorem ofString_of_isName {name : String} (valid : isName name = true) :
    Path.ofString name = ⟨.relative, [name]⟩ := by
  simp only [isName, Bool.and_eq_true, decide_eq_true_eq, Bool.not_eq_true',
    List.contains_eq_mem, decide_eq_false_iff_not] at valid
  obtain ⟨⟨⟨nonempty, notDot⟩, -⟩, noSlash⟩ := valid
  have starts : name.toList.takeWhile (· = '/') = [] := by
    cases spelled : name.toList with
    | nil => rfl
    | cons c rest =>
        have notSlash : c ≠ '/' := by
          rintro rfl
          simp [spelled] at noSlash
        exact List.takeWhile_cons_of_neg (by simpa using notSlash)
  have single : name.toList.splitOn '/' = [name.toList] := List.splitOn_eq_singleton noSlash
  rw [Path.ofString, Path.anchorOf, starts, single]
  simp [Path.isPart, nonempty, notDot]

/-- Relative paths are joined by their parts. -/
theorem foldl_join_of_relative {names : List String}
    (relative : ∀ name ∈ names, (Path.ofString name).anchor = .relative) (here : Path) :
    names.foldl (fun path name => path.join (.ofString name)) here =
      ⟨here.anchor, here.parts ++ names.flatMap fun name => (Path.ofString name).parts⟩ := by
  induction names generalizing here with
  | nil => simp
  | cons name names ih =>
      rw [List.forall_mem_cons] at relative
      rw [List.foldl_cons, ih relative.2, Path.join, if_pos relative.1, List.flatMap_cons,
        List.append_assoc]

theorem toList_fileName (segment : String) :
    (fileName segment).toList = Name.snakeOf segment.toList ++ ['.', 'p', 'y'] := by
  simp [fileName]

/-- The name of a file holds letters and digits of ASCII, underscores and a dot. -/
theorem isWordChar_of_mem_fileName {segment : String} {c : Char}
    (member : c ∈ (fileName segment).toList) :
    Name.isWordChar c = true ∨ c = '_' ∨ c = '.' := by
  rw [toList_fileName, List.mem_append] at member
  rcases member with stem | ending
  · exact (Name.isWordChar_of_mem_snakeOf stem).imp_right .inl
  · simp only [List.mem_cons, List.not_mem_nil, or_false] at ending
    rcases ending with rfl | rfl | rfl
    · exact .inr (.inr rfl)
    · exact .inl (by decide)
    · exact .inl (by decide)

theorem isName_fileName (segment : String) : isName (fileName segment) = true := by
  have long : ∀ short : String, short.toList.length < 3 → fileName segment ≠ short := by
    intro short few same
    have lengths := congrArg (fun name => name.toList.length) same
    simp only [toList_fileName, List.length_append] at lengths
    have three : ['.', 'p', 'y'].length = 3 := rfl
    omega
  have noSlash : '/' ∉ (fileName segment).toList := by
    intro member
    rcases isWordChar_of_mem_fileName member with inside | other | other <;> contradiction
  simp [isName, long "" (by decide), long "." (by decide), long ".." (by decide), noSlash]

/-- Every host takes the names of the files of modules. -/
theorem spells_fileName (host : Host) (segment : String) :
    host.spells (fileName segment) = true := by
  rw [Host.spells, Bool.and_eq_true, Codec.takes, List.all_eq_true, holdsNull,
    Bool.not_eq_true', List.contains_eq_mem, decide_eq_false_iff_not]
  constructor
  · intro c member
    apply host.nameCodec.encodes_of_not_isStandIn
    rw [Text.isStandIn, decide_eq_false_iff_not, Text.firstStandIn]
    rcases isWordChar_of_mem_fileName member with inside | rfl | rfl
    · have small := Name.toNat_lt_of_isWordChar inside
      omega
    · decide
    · decide
  · intro member
    rcases isWordChar_of_mem_fileName member with inside | other | other <;> contradiction

theorem path_eq (id : String) (root : Path) :
    path id root = ⟨(directory id root).anchor,
      (directory id root).parts ++ [fileName (Name.lastSegment id)]⟩ := by
  rw [path, List.foldl_append]
  simp only [List.foldl_cons, List.foldl_nil, ofString_of_isName (isName_fileName _)]
  rfl

@[simp] theorem parent_path (id : String) (root : Path) :
    (path id root).parent = directory id root := by
  simp [path_eq, Path.parent]

theorem namesFile_path (id : String) (root : Path) : FileTree.NamesFile (path id root) :=
  ⟨fileName (Name.lastSegment id), by rw [parent_path, path_eq], isName_fileName _⟩

theorem fileName_inj {first second : String} : fileName first = fileName second ↔
    Name.loweredWords first.toList = Name.loweredWords second.toList := by
  rw [← Name.snakeOf_inj, fileName, fileName, String.append_left_inj, Name.snake, Name.snake,
    String.ofList_inj]

/-- Ids meet on one path iff they meet. -/
theorem path_inj : path first root = path second root ↔ Meet root first second := by
  rw [Meet, stem, stem, ← fileName_inj]
  constructor
  · intro same
    have parents := congrArg Path.parent same
    rw [parent_path, parent_path] at parents
    rw [path_eq, path_eq, parents] at same
    refine ⟨parents, ?_⟩
    simpa using same
  · intro ⟨house, name⟩
    rw [path_eq, path_eq, house, name]

/-! ## Ordinary ids -/

/-- Whether every segment of an id can name a file or a directory. -/
def isOrdinary (id : String) : Bool :=
  (Name.segments id).all isName

/-- The module for an ordinary id lies below the root, in a directory for each segment. -/
theorem directory_of_isOrdinary (ordinary : isOrdinary id = true) (root : Path) :
    directory id root = ⟨root.anchor, root.parts ++ (Name.segments id).dropLast⟩ := by
  have single : ∀ name ∈ (Name.segments id).dropLast,
      Path.ofString name = ⟨.relative, [name]⟩ := by
    intro name member
    apply ofString_of_isName
    exact List.all_eq_true.mp ordinary name ((List.dropLast_sublist _).subset member)
  have parts : (Name.segments id).dropLast.flatMap (fun name => (Path.ofString name).parts) =
      (Name.segments id).dropLast.flatMap fun name => [name] :=
    List.flatMap_congr fun name member => by rw [single name member]
  rw [directory, foldl_join_of_relative fun name member => by rw [single name member], parts,
    List.flatMap_singleton']

/-- Ordinary ids meet iff they have the same segments but for the last, and the last
segments have the same words up to capitals. -/
theorem meet_iff_of_isOrdinary (early : isOrdinary first = true)
    (late : isOrdinary second = true) : Meet root first second ↔
      (Name.segments first).dropLast = (Name.segments second).dropLast ∧
        stem first = stem second := by
  simp [Meet, directory_of_isOrdinary early, directory_of_isOrdinary late]

theorem resolve_path_of_isOrdinary (ordinary : isOrdinary id = true) (tree : FileTree)
    (root : Path) : tree.resolve (path id root) = tree.resolve root ++
      ((Name.segments id).dropLast ++ [fileName (Name.lastSegment id)]) := by
  have valid : ∀ name ∈ (Name.segments id).dropLast ++ [fileName (Name.lastSegment id)],
      isName name = true := by
    intro name member
    rw [List.mem_append, List.mem_singleton] at member
    rcases member with inside | rfl
    · exact List.all_eq_true.mp ordinary name ((List.dropLast_sublist _).subset inside)
    · exact isName_fileName _
  rw [path_eq, directory_of_isOrdinary ordinary, List.append_assoc]
  exact FileTree.resolve_append root valid

/-- The modules for ordinary ids are written to one place only if the ids meet. -/
theorem resolve_path_inj_of_isOrdinary (early : isOrdinary first = true)
    (late : isOrdinary second = true) (tree : FileTree) :
    tree.resolve (path first root) = tree.resolve (path second root) ↔
      Meet root first second := by
  rw [resolve_path_of_isOrdinary early, resolve_path_of_isOrdinary late,
    List.append_cancel_left_eq, List.append_singleton_inj, fileName_inj,
    meet_iff_of_isOrdinary early late]
  rfl

end LexiconCompiler.Module
