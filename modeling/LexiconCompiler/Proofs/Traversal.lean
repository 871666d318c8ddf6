import Mathlib.Data.List.Forall2

/-!
# Traversals that may fail

A list is taken item by item, and the first item that fails ends the traversal with its
failure. The two main statements say what a traversal gives: one result for every item,
in order, or the failure of the first item that fails.
-/

namespace LexiconCompiler.Traversal

universe u v w

variable {ε : Type u} {α : Type v} {β γ : Type w}

theorem bind_eq_ok_iff {first : Except ε β} {next : β → Except ε γ} {result : γ} :
    first >>= next = .ok result ↔ ∃ middle, first = .ok middle ∧ next middle = .ok result := by
  cases first with
  | error failure =>
      constructor
      · intro equal
        cases equal
      · rintro ⟨middle, impossible, _⟩
        cases impossible
  | ok middle =>
      constructor
      · intro equal
        exact ⟨middle, rfl, equal⟩
      · rintro ⟨other, equal, found⟩
        cases equal
        exact found

theorem map_eq_ok_iff {first : Except ε β} {image : β → γ} {result : γ} :
    image <$> first = .ok result ↔ ∃ middle, first = .ok middle ∧ image middle = result := by
  cases first with
  | error failure =>
      constructor
      · intro equal
        cases equal
      · rintro ⟨middle, impossible, _⟩
        cases impossible
  | ok middle =>
      constructor
      · intro equal
        exact ⟨middle, rfl, Except.ok.inj equal⟩
      · rintro ⟨other, equal, found⟩
        cases equal
        exact congrArg Except.ok found

theorem map_eq_error_iff {first : Except ε β} {image : β → γ} {failure : ε} :
    image <$> first = .error failure ↔ first = .error failure := by
  cases first with
  | error other =>
      constructor
      · intro equal
        exact congrArg Except.error (Except.error.inj equal)
      · rintro ⟨⟩
        rfl
  | ok middle =>
      constructor
      · rintro ⟨⟩
      · rintro ⟨⟩

theorem bind_eq_error_iff {first : Except ε β} {next : β → Except ε γ} {failure : ε} :
    first >>= next = .error failure ↔
      first = .error failure ∨ ∃ middle, first = .ok middle ∧ next middle = .error failure := by
  cases first with
  | error other =>
      constructor
      · intro equal
        exact .inl (congrArg Except.error (Except.error.inj equal))
      · rintro (equal | ⟨middle, impossible, _⟩)
        · exact congrArg Except.error (Except.error.inj equal)
        · cases impossible
  | ok middle =>
      constructor
      · intro equal
        exact .inr ⟨middle, rfl, equal⟩
      · rintro (impossible | ⟨other, equal, failed⟩)
        · cases impossible
        · cases equal
          exact failed

variable {step : α → Except ε β}

/-- A traversal succeeds with one result for every item, in order. -/
theorem mapM_eq_ok_iff {items : List α} {results : List β} :
    items.mapM step = .ok results ↔
      List.Forall₂ (fun item result => step item = .ok result) items results := by
  induction items generalizing results with
  | nil =>
      rw [List.mapM_nil]
      constructor
      · intro equal
        cases equal
        exact .nil
      · intro related
        cases related
        rfl
  | cons item items ih =>
      rw [List.mapM_cons, bind_eq_ok_iff]
      constructor
      · rintro ⟨result, here, rest⟩
        rw [bind_eq_ok_iff] at rest
        obtain ⟨others, there, equal⟩ := rest
        cases equal
        exact .cons here (ih.mp there)
      · intro related
        cases related with
        | cons here there =>
            refine ⟨_, here, ?_⟩
            rw [bind_eq_ok_iff]
            exact ⟨_, ih.mpr there, rfl⟩

theorem exists_of_mem_right {related : α → β → Prop} {items : List α} {results : List β}
    (all : List.Forall₂ related items results) {result : β} (member : result ∈ results) :
    ∃ item ∈ items, related item result := by
  induction all with
  | nil => cases member
  | cons here there ih =>
      rcases List.mem_cons.mp member with rfl | inside
      · exact ⟨_, List.mem_cons_self, here⟩
      · obtain ⟨item, found, relates⟩ := ih inside
        exact ⟨item, List.mem_cons_of_mem _ found, relates⟩

theorem exists_of_mem_left {related : α → β → Prop} {items : List α} {results : List β}
    (all : List.Forall₂ related items results) {item : α} (member : item ∈ items) :
    ∃ result ∈ results, related item result := by
  induction all with
  | nil => cases member
  | cons here there ih =>
      rcases List.mem_cons.mp member with rfl | inside
      · exact ⟨_, List.mem_cons_self, here⟩
      · obtain ⟨result, found, relates⟩ := ih inside
        exact ⟨result, List.mem_cons_of_mem _ found, relates⟩

theorem forall₂_and_of_mem {related : α → β → Prop} {test : β → Prop} {items : List α}
    {results : List β} (all : List.Forall₂ related items results)
    (holds : ∀ result ∈ results, test result) :
    List.Forall₂ (fun item result => related item result ∧ test result) items results := by
  induction all with
  | nil => exact .nil
  | cons here there ih =>
      exact .cons ⟨here, holds _ List.mem_cons_self⟩
        (ih fun result member => holds result (List.mem_cons_of_mem _ member))

theorem exists_append_of_forall₂ {related : α → β → Prop} {first second : List α}
    {results : List β} (all : List.Forall₂ related (first ++ second) results) :
    ∃ front back, results = front ++ back ∧ List.Forall₂ related first front ∧
      List.Forall₂ related second back := by
  induction first generalizing results with
  | nil => exact ⟨[], results, rfl, .nil, all⟩
  | cons item first ih =>
      cases all with
      | cons here there =>
          obtain ⟨front, back, split, frontRelated, backRelated⟩ := ih there
          exact ⟨_ :: front, back, by rw [split]; rfl, .cons here frontRelated, backRelated⟩

theorem exists_split_of_forall₂ {related : α → β → Prop} {items : List α}
    {first second : List β} {result : β}
    (all : List.Forall₂ related items (first ++ result :: second)) :
    ∃ before item after, items = before ++ item :: after ∧
      List.Forall₂ related before first ∧ related item result ∧
      List.Forall₂ related after second := by
  obtain ⟨before, rest, split, early, late⟩ := exists_append_of_forall₂ all.flip
  cases late with
  | cons here late => exact ⟨before, _, _, split, early.flip, here, late.flip⟩

theorem forall₂_comp {related : α → β → Prop} {others : β → γ → Prop} {items : List α}
    {middles : List β} {results : List γ} (first : List.Forall₂ related items middles)
    (second : List.Forall₂ others middles results) :
    List.Forall₂ (fun item result => ∃ middle, related item middle ∧ others middle result)
      items results := by
  induction first generalizing results with
  | nil =>
      cases second
      exact .nil
  | cons here there ih =>
      cases second with
      | cons next rest => exact .cons ⟨_, here, next⟩ (ih rest)

/-- Tests that agree on related items keep related items. -/
theorem forall₂_filter {related : α → β → Prop} {test : α → Bool} {other : β → Bool}
    (agrees : ∀ item result, related item result → test item = other result)
    {items : List α} {results : List β} (all : List.Forall₂ related items results) :
    List.Forall₂ related (items.filter test) (results.filter other) := by
  refine List.rel_filter ?_ all
  intro item result relates
  change test item = true ↔ other result = true
  rw [agrees item result relates]

/-- A traversal by a step that only tests its items maps them if all pass. -/
theorem mapM_eq_ok_iff_map {passes : α → Prop} {image : α → β}
    (tests : ∀ item result, step item = .ok result ↔ passes item ∧ result = image item)
    {items : List α} {results : List β} :
    items.mapM step = .ok results ↔
      (∀ item ∈ items, passes item) ∧ results = items.map image := by
  rw [mapM_eq_ok_iff]
  simp only [tests]
  constructor
  · intro related
    induction related with
    | nil => simp
    | cons here there ih =>
        obtain ⟨passed, rfl⟩ := here
        obtain ⟨others, rfl⟩ := ih
        simp only [List.mem_cons, List.map_cons, and_true]
        rintro item (rfl | member)
        · exact passed
        · exact others item member
  · rintro ⟨passed, rfl⟩
    rw [List.forall₂_map_right_iff, List.forall₂_same]
    intro item member
    exact ⟨passed item member, rfl⟩

/-- A step fails at an item of a list and at none before it. -/
def FailsFirst (step : α → Except ε β) (items : List α) (failure : ε) : Prop :=
  ∃ before item after, items = before ++ item :: after ∧
    (∀ earlier ∈ before, ∃ result, step earlier = .ok result) ∧ step item = .error failure

theorem failsFirst_nil {failure : ε} : ¬ FailsFirst step [] failure := by
  intro ⟨before, item, after, split, _⟩
  cases before <;> cases split

/-- The first item of a list fails, or it passes and a later one fails first. -/
theorem failsFirst_cons {first : α} {items : List α} {failure : ε} :
    FailsFirst step (first :: items) failure ↔
      step first = .error failure ∨
        (∃ result, step first = .ok result) ∧ FailsFirst step items failure := by
  constructor
  · intro ⟨before, item, after, split, passes, fails⟩
    cases before with
    | nil =>
        cases split
        exact .inl fails
    | cons head before =>
        cases split
        have here := passes first List.mem_cons_self
        have later := fun earlier member => passes earlier (List.mem_cons_of_mem _ member)
        exact .inr ⟨here, before, item, after, rfl, later, fails⟩
  · intro found
    rcases found with fails | ⟨here, before, item, after, rfl, passes, fails⟩
    · exact ⟨[], first, items, rfl, by simp, fails⟩
    · refine ⟨first :: before, item, after, rfl, ?_, fails⟩
      intro earlier member
      cases member with
      | head => exact here
      | tail _ inside => exact passes earlier inside

/-- A traversal fails with the failure of the first item that fails. -/
theorem mapM_eq_error_iff {items : List α} {failure : ε} :
    items.mapM step = .error failure ↔ FailsFirst step items failure := by
  induction items with
  | nil =>
      constructor
      · intro equal
        cases equal
      · intro fails
        exact absurd fails failsFirst_nil
  | cons first items ih =>
      rw [failsFirst_cons, ← ih, List.mapM_cons]
      cases here : step first with
      | error other =>
          constructor
          · intro equal
            cases equal
            exact .inl rfl
          · intro found
            rcases found with same | ⟨⟨result, passed⟩, _⟩
            · exact congrArg Except.error (Except.error.inj same)
            · cases passed
      | ok result =>
          constructor
          · intro equal
            refine .inr ⟨⟨result, rfl⟩, ?_⟩
            cases later : items.mapM step with
            | error other =>
                rw [later] at equal
                exact congrArg Except.error (Except.error.inj equal)
            | ok results =>
                rw [later] at equal
                cases equal
          · intro found
            rcases found with failed | ⟨_, later⟩
            · cases failed
            · rw [later]
              rfl

/-- Steps that fail alike on every item of a list fail first with the same failures. -/
theorem failsFirst_congr {other : α → Except ε γ} {items : List α} {failure : ε}
    (passes : ∀ item ∈ items,
      (∃ result, step item = .ok result) ↔ ∃ result, other item = .ok result)
    (fails : ∀ item ∈ items, step item = .error failure ↔ other item = .error failure) :
    FailsFirst step items failure ↔ FailsFirst other items failure := by
  induction items with
  | nil => exact iff_of_false failsFirst_nil failsFirst_nil
  | cons first items ih =>
      rw [failsFirst_cons, failsFirst_cons, passes first List.mem_cons_self,
        fails first List.mem_cons_self]
      rw [ih (fun item member => passes item (List.mem_cons_of_mem _ member))
        (fun item member => fails item (List.mem_cons_of_mem _ member))]

/-- An accumulation fails at an item if it goes through for the items before it and the
step from there fails. -/
theorem foldlM_eq_error_iff {accumulate : β → α → Except ε β} {start : β} {items : List α}
    {failure : ε} :
    items.foldlM accumulate start = .error failure ↔
      ∃ before item after middle, items = before ++ item :: after ∧
        before.foldlM accumulate start = .ok middle ∧
        accumulate middle item = .error failure := by
  constructor
  · induction items generalizing start with
    | nil =>
        intro impossible
        cases impossible
    | cons first items ih =>
        rw [List.foldlM_cons, bind_eq_error_iff]
        rintro (failed | ⟨middle, here, later⟩)
        · exact ⟨[], first, items, start, rfl, rfl, failed⟩
        · obtain ⟨before, item, after, last, rfl, gone, failed⟩ := ih later
          refine ⟨first :: before, item, after, last, rfl, ?_, failed⟩
          rw [List.foldlM_cons, bind_eq_ok_iff]
          exact ⟨middle, here, gone⟩
  · rintro ⟨before, item, after, middle, rfl, gone, failed⟩
    rw [List.foldlM_append, bind_eq_error_iff]
    refine .inr ⟨middle, gone, ?_⟩
    rw [List.foldlM_cons, bind_eq_error_iff]
    exact .inl failed

/-! ## Success -/

/-- A computation gives a result. -/
def Succeeds (outcome : Except ε β) : Prop :=
  ∃ result, outcome = .ok result

theorem succeeds_iff {outcome : Except ε β} :
    Succeeds outcome ↔ ∃ result, outcome = .ok result := Iff.rfl

@[simp] theorem succeeds_ok (result : β) : Succeeds (.ok result : Except ε β) :=
  ⟨result, rfl⟩

@[simp] theorem not_succeeds_error (failure : ε) : ¬ Succeeds (.error failure : Except ε β) := by
  rintro ⟨result, impossible⟩
  cases impossible

theorem not_succeeds_iff {outcome : Except ε β} :
    ¬ Succeeds outcome ↔ ∃ failure, outcome = .error failure := by
  cases outcome with
  | error failure => simp
  | ok result => simp

theorem succeeds_bind_iff {first : Except ε β} {next : β → Except ε γ} :
    Succeeds (first >>= next) ↔ ∃ middle, first = .ok middle ∧ Succeeds (next middle) := by
  simp only [Succeeds, bind_eq_ok_iff]
  constructor
  · rintro ⟨result, middle, here, there⟩
    exact ⟨middle, here, result, there⟩
  · rintro ⟨middle, here, result, there⟩
    exact ⟨result, middle, here, there⟩

theorem succeeds_map_iff {first : Except ε β} {image : β → γ} :
    Succeeds (image <$> first) ↔ Succeeds first := by
  simp only [Succeeds, map_eq_ok_iff]
  constructor
  · rintro ⟨_, middle, here, _⟩
    exact ⟨middle, here⟩
  · rintro ⟨middle, here⟩
    exact ⟨image middle, middle, here, rfl⟩

/-- A traversal gives results if its step does for every item. -/
theorem succeeds_mapM_iff {items : List α} :
    Succeeds (items.mapM step) ↔ ∀ item ∈ items, Succeeds (step item) := by
  induction items with
  | nil => simp [Succeeds, List.mapM_nil, pure, Except.pure]
  | cons item items ih =>
      rw [List.mapM_cons, succeeds_bind_iff, List.forall_mem_cons, ← ih]
      constructor
      · rintro ⟨result, here, rest⟩
        obtain ⟨results, there, _⟩ := succeeds_bind_iff.mp rest
        exact ⟨⟨result, here⟩, results, there⟩
      · rintro ⟨⟨result, here⟩, results, there⟩
        exact ⟨result, here, succeeds_bind_iff.mpr ⟨results, there, succeeds_ok _⟩⟩

end LexiconCompiler.Traversal
