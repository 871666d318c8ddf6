/-!
# Ordered tables

A table pairs keys with values, each key once, in the order in which the keys were
first given. Giving a key again changes its value and not its place.
-/

namespace LexiconCompiler

universe u v

/-- Keys with values in order, each key once. -/
@[ext] structure Table (κ : Type u) (α : Type v) where
  /-- The keys with their values. -/
  entries : List (κ × α)
  /-- No key occurs twice. -/
  distinct : (entries.map Prod.fst).Nodup
  deriving DecidableEq

namespace Table

variable {κ : Type u} {α : Type v}

instance [Repr κ] [Repr α] : Repr (Table κ α) where
  reprPrec table depth := reprPrec table.entries depth

/-- The table without entries. -/
def empty : Table κ α where
  entries := []
  distinct := by simp

instance : Inhabited (Table κ α) := ⟨empty⟩

/-- The keys of a table in order. -/
def keys (table : Table κ α) : List κ :=
  table.entries.map Prod.fst

@[simp] theorem keys_empty : (empty : Table κ α).keys = [] := rfl

/-- The entries of a table that satisfy a test. -/
def filter (table : Table κ α) (keep : κ × α → Bool) : Table κ α where
  entries := table.entries.filter keep
  distinct := table.distinct.sublist (List.filter_sublist.map Prod.fst)

variable [DecidableEq κ]

/-- The value of a key in a list of entries. -/
def valueIn (key : κ) : List (κ × α) → Option α
  | [] => none
  | entry :: rest => if entry.1 = key then some entry.2 else valueIn key rest

/-- Pair a key with a value in a list of entries: in the place of the key if it is
there, and at the end if not. -/
def assign (key : κ) (value : α) : List (κ × α) → List (κ × α)
  | [] => [(key, value)]
  | entry :: rest =>
      if entry.1 = key then (key, value) :: rest else entry :: assign key value rest

theorem keys_assign (key : κ) (value : α) (entries : List (κ × α)) :
    (assign key value entries).map Prod.fst =
      if key ∈ entries.map Prod.fst then entries.map Prod.fst
      else entries.map Prod.fst ++ [key] := by
  induction entries with
  | nil => simp [assign]
  | cons entry rest ih =>
      by_cases same : entry.1 = key
      · simp [assign, same]
      · have different : ¬ key = entry.1 := fun equal => same equal.symm
        simp only [assign, same, if_false, List.map_cons, ih, List.mem_cons, different,
          false_or]
        split <;> simp

theorem distinct_assign (key : κ) (value : α) {entries : List (κ × α)}
    (distinct : (entries.map Prod.fst).Nodup) :
    ((assign key value entries).map Prod.fst).Nodup := by
  rw [keys_assign]
  split
  · exact distinct
  · rename_i absent
    rw [List.nodup_append]
    refine ⟨distinct, by simp, ?_⟩
    intro first member second last
    rw [List.mem_singleton] at last
    rintro rfl
    exact absent (last ▸ member)

theorem valueIn_assign (key other : κ) (value : α) (entries : List (κ × α)) :
    valueIn other (assign key value entries) =
      if other = key then some value else valueIn other entries := by
  induction entries with
  | nil =>
      by_cases same : other = key
      · simp [assign, valueIn, same]
      · have different : ¬ key = other := fun equal => same equal.symm
        simp [assign, valueIn, same, different]
  | cons entry rest ih =>
      by_cases here : entry.1 = key
      · by_cases same : other = key
        · simp [assign, valueIn, here, same]
        · have different : ¬ key = other := fun equal => same equal.symm
          simp [assign, valueIn, here, same, different]
      · by_cases found : entry.1 = other
        · have different : ¬ other = key := fun equal => here (found.trans equal)
          simp [assign, valueIn, found, different]
        · simp [assign, valueIn, here, found, ih]

/-- The value of a key. -/
def get? (table : Table κ α) (key : κ) : Option α :=
  valueIn key table.entries

/-- A table in which a key has a value. -/
def insert (table : Table κ α) (key : κ) (value : α) : Table κ α where
  entries := assign key value table.entries
  distinct := distinct_assign key value table.distinct

/-- The table of a list in which a later entry for a key replaces the value of an
earlier one. -/
def ofList (entries : List (κ × α)) : Table κ α :=
  entries.foldl (fun table entry => table.insert entry.1 entry.2) empty

@[simp] theorem get?_empty (key : κ) : (empty : Table κ α).get? key = none := rfl

/-- Giving a key a value changes what that key finds and nothing else. -/
theorem get?_insert (table : Table κ α) (key other : κ) (value : α) :
    (table.insert key value).get? other =
      if other = key then some value else table.get? other :=
  valueIn_assign key other value table.entries

/-- A key keeps its place, and a new one comes last. -/
theorem keys_insert (table : Table κ α) (key : κ) (value : α) :
    (table.insert key value).keys =
      if key ∈ table.keys then table.keys else table.keys ++ [key] :=
  keys_assign key value table.entries

theorem valueIn_eq_some_iff {entries : List (κ × α)}
    (distinct : (entries.map Prod.fst).Nodup) {key : κ} {value : α} :
    valueIn key entries = some value ↔ (key, value) ∈ entries := by
  induction entries with
  | nil => simp [valueIn]
  | cons entry rest ih =>
      rw [List.map_cons, List.nodup_cons] at distinct
      by_cases here : entry.1 = key
      · subst here
        have absent : (entry.1, value) ∉ rest := fun member =>
          distinct.1 (List.mem_map.mpr ⟨_, member, rfl⟩)
        simp only [valueIn, if_true, Option.some.injEq, List.mem_cons, absent, or_false]
        constructor
        · rintro rfl
          rfl
        · intro equal
          rw [← equal]
      · have different : (key, value) ≠ entry := fun equal => here (by rw [← equal])
        simp [valueIn, here, ih distinct.2, different]

/-- A key finds a value exactly if the table pairs the two. -/
theorem get?_eq_some_iff {table : Table κ α} {key : κ} {value : α} :
    table.get? key = some value ↔ (key, value) ∈ table.entries :=
  valueIn_eq_some_iff table.distinct

theorem valueIn_isSome_iff {entries : List (κ × α)} {key : κ} :
    (valueIn key entries).isSome = true ↔ key ∈ entries.map Prod.fst := by
  induction entries with
  | nil => simp [valueIn]
  | cons entry rest ih =>
      by_cases here : entry.1 = key
      · simp [valueIn, here]
      · have different : ¬ key = entry.1 := fun equal => here equal.symm
        simpa [valueIn, here, different] using ih

/-- A key finds something exactly if it is one of the keys. -/
theorem isSome_get?_iff {table : Table κ α} {key : κ} :
    (table.get? key).isSome = true ↔ key ∈ table.keys :=
  valueIn_isSome_iff

theorem assign_of_not_mem {key : κ} {value : α} {entries : List (κ × α)}
    (absent : key ∉ entries.map Prod.fst) :
    assign key value entries = entries ++ [(key, value)] := by
  induction entries with
  | nil => rfl
  | cons entry rest ih =>
      simp only [List.map_cons, List.mem_cons, not_or] at absent
      have different : ¬ entry.1 = key := fun equal => absent.1 equal.symm
      simp [assign, different, ih absent.2]

theorem entries_foldl_insert (later : List (κ × α)) (table : Table κ α)
    (distinct : ((table.entries ++ later).map Prod.fst).Nodup) :
    (later.foldl (fun table entry => table.insert entry.1 entry.2) table).entries =
      table.entries ++ later := by
  induction later generalizing table with
  | nil => simp
  | cons entry rest ih =>
      have absent : entry.1 ∉ table.entries.map Prod.fst := by
        rw [List.map_append, List.nodup_append] at distinct
        intro member
        exact distinct.2.2 _ member entry.1 (by simp) rfl
      have inserted : (table.insert entry.1 entry.2).entries = table.entries ++ [entry] :=
        assign_of_not_mem absent
      rw [List.foldl_cons, ih _ (by rw [inserted]; simpa using distinct), inserted]
      simp

/-- A list without repeated keys is the table it makes. -/
theorem entries_ofList {entries : List (κ × α)}
    (distinct : (entries.map Prod.fst).Nodup) : (ofList entries).entries = entries := by
  have whole := entries_foldl_insert entries empty (by simpa [empty] using distinct)
  simpa [ofList, empty] using whole

/-- The keys of a table made of a list are those that the list gives. -/
theorem mem_keys_ofList {entries : List (κ × α)} {key : κ} :
    key ∈ (ofList entries).keys ↔ key ∈ entries.map Prod.fst := by
  have general : ∀ (later : List (κ × α)) (table : Table κ α),
      key ∈ (later.foldl (fun table entry => table.insert entry.1 entry.2) table).keys ↔
        key ∈ table.keys ∨ key ∈ later.map Prod.fst := by
    intro later
    induction later with
    | nil => simp
    | cons first rest ih =>
        intro table
        have inserted : key ∈ (table.insert first.1 first.2).keys ↔
            key ∈ table.keys ∨ key = first.1 := by
          rw [keys_insert]
          split
          · rename_i present
            constructor
            · exact .inl
            · rintro (old | rfl)
              · exact old
              · exact present
          · simp
        rw [List.foldl_cons, ih, inserted, List.map_cons, List.mem_cons, or_assoc]
  rw [ofList, general]
  simp

end Table

end LexiconCompiler
