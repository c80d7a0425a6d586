import Mathlib.Data.List.Forall2
import ConsumerGroups.Errand

/-! # Results and lists of results

When a computation that may fail succeeds, so did every part of it. A list of results that are
all successes is written as the image of their values.
-/

namespace ConsumerGroups.Results

variable {ε ε' α β γ σ : Type}

theorem bind_eq_ok {result : Except ε α} {next : α → Except ε β} {value : β} :
    result >>= next = .ok value ↔ ∃ first, result = .ok first ∧ next first = .ok value := by
  cases result with
  | error failure => simp [bind, Except.bind]
  | ok first => simp [bind, Except.bind]

theorem bind_eq_error {result : Except ε α} {next : α → Except ε β} {failure : ε} :
    result >>= next = .error failure ↔
      result = .error failure ∨ ∃ first, result = .ok first ∧ next first = .error failure := by
  cases result with
  | error failure => simp [bind, Except.bind]
  | ok first => simp [bind, Except.bind]

theorem map_eq_ok {f : α → β} {result : Except ε α} {value : β} :
    result.map f = .ok value ↔ ∃ first, result = .ok first ∧ f first = value := by
  cases result <;> simp [Except.map]

theorem map_eq_error {f : α → β} {result : Except ε α} {failure : ε} :
    result.map f = .error failure ↔ result = .error failure := by
  cases result <;> simp [Except.map]

@[simp] theorem mapError_eq_ok {f : ε → ε'} {result : Except ε α} {value : α} :
    result.mapError f = .ok value ↔ result = .ok value := by
  cases result <;> simp [Except.mapError]

@[simp] theorem inContext_eq_ok {layer : Context} {result : Except Failure α} {value : α} :
    inContext layer result = .ok value ↔ result = .ok value :=
  mapError_eq_ok

theorem inContext_eq_error {layer : Context} {result : Except Failure α} {failure : Failure} :
    inContext layer result = .error failure ↔
      ∃ inner, result = .error inner ∧ inner.within layer = failure := by
  cases result <;> simp [inContext, Except.mapError]

/-- A traversal succeeds exactly if every element does. -/
theorem mapM_eq_ok {f : α → Except ε β} {items : List α} {values : List β} :
    items.mapM f = .ok values ↔ items.map f = values.map .ok := by
  induction items generalizing values with
  | nil =>
      cases values <;> simp [pure, Except.pure]
  | cons item rest ih =>
      rw [List.mapM_cons, bind_eq_ok]
      simp only [bind_eq_ok, ih]
      constructor
      · rintro ⟨value, hvalue, others, hothers, hall⟩
        cases hall
        simp [hvalue, hothers]
      · intro hall
        cases values with
        | nil => simp at hall
        | cons value others =>
            simp only [List.map_cons, List.cons.injEq] at hall
            exact ⟨value, hall.1, others, hall.2, rfl⟩

/-- A traversal fails as the first of its elements that does. -/
theorem mapM_eq_error_iff {f : α → Except ε β} {items : List α} {failure : ε} :
    items.mapM f = .error failure ↔ ∃ passed item later, items = passed ++ item :: later ∧
      (∀ other ∈ passed, ∃ value, f other = .ok value) ∧ f item = .error failure := by
  induction items with
  | nil => simp [pure, Except.pure]
  | cons first rest ih =>
      rw [List.mapM_cons, bind_eq_error]
      simp only [bind_eq_error, ih]
      constructor
      · rintro (hfirst | ⟨value, hvalue, ⟨passed, item, later, rfl, hpassed, hitem⟩ |
          ⟨_, _, hpure⟩⟩)
        · exact ⟨[], first, rest, rfl, by simp, hfirst⟩
        · exact ⟨first :: passed, item, later, rfl,
            List.forall_mem_cons.mpr ⟨⟨value, hvalue⟩, hpassed⟩, hitem⟩
        · cases hpure
      · rintro ⟨_ | ⟨first', passed⟩, item, later, hitems, hpassed, hitem⟩ <;> cases hitems
        · exact .inl hitem
        · obtain ⟨⟨value, hvalue⟩, hothers⟩ := List.forall_mem_cons.mp hpassed
          exact .inr ⟨value, hvalue, .inl ⟨passed, item, later, rfl, hothers, hitem⟩⟩

/-- A traversal that fails does so at one of its elements. -/
theorem mapM_eq_error {f : α → Except ε β} {items : List α} {failure : ε}
    (hfailure : items.mapM f = .error failure) : ∃ item ∈ items, f item = .error failure := by
  obtain ⟨passed, item, later, rfl, -, hitem⟩ := mapM_eq_error_iff.mp hfailure
  exact ⟨item, by simp, hitem⟩

/-- A view of the successes is a view of what they came from, if it is so for each. -/
theorem map_successes {f : α → Except ε β} {items : List α} {values : List β}
    (hall : items.map f = values.map .ok) {view : β → γ} {source : α → γ}
    (hview : ∀ item value, f item = .ok value → view value = source item) :
    values.map view = items.map source := by
  induction items generalizing values with
  | nil => simp_all
  | cons item rest ih =>
      cases values with
      | nil => simp at hall
      | cons value others =>
          obtain ⟨hvalue, hothers⟩ := List.cons.inj hall
          simp [hview item value hvalue, ih hothers]

theorem exists_successes {f : α → Except ε β} {items : List α}
    (hall : ∀ item ∈ items, ∃ value, f item = .ok value) :
    ∃ values : List β, items.map f = values.map .ok := by
  induction items with
  | nil => exact ⟨[], rfl⟩
  | cons item rest ih =>
      obtain ⟨value, hvalue⟩ := hall item List.mem_cons_self
      obtain ⟨others, hothers⟩ := ih fun other hother => hall other (List.mem_cons_of_mem _ hother)
      exact ⟨value :: others, by simp [hvalue, hothers]⟩

theorem mem_of_successes {f : α → Except ε β} {items : List α} {values : List β}
    (hall : items.map f = values.map .ok) {item : α} (hitem : item ∈ items) :
    ∃ value ∈ values, f item = .ok value := by
  have hmem : f item ∈ values.map .ok := hall ▸ List.mem_map_of_mem hitem
  obtain ⟨value, hvalue, heq⟩ := List.mem_map.mp hmem
  exact ⟨value, hvalue, heq.symm⟩

theorem exists_related {related : α → β → Prop} {items : List α}
    (hall : ∀ item ∈ items, ∃ value, related item value) :
    ∃ values, List.Forall₂ related items values := by
  induction items with
  | nil => exact ⟨[], .nil⟩
  | cons item rest ih =>
      obtain ⟨value, hvalue⟩ := hall item List.mem_cons_self
      obtain ⟨others, hothers⟩ := ih fun other hother => hall other (List.mem_cons_of_mem _ hother)
      exact ⟨value :: others, .cons hvalue hothers⟩

/-- Lists are related element by element if each place of the one has its match in the other. -/
theorem forall₂_iff_getElem? {related : α → β → Prop} {items : List α} {values : List β} :
    List.Forall₂ related items values ↔ values.length = items.length ∧
      ∀ (place : Nat) item, items[place]? = some item →
        ∃ value, values[place]? = some value ∧ related item value := by
  rw [List.forall₂_iff_get]
  constructor
  · rintro ⟨hlength, hrelated⟩
    refine ⟨hlength.symm, fun place item hitem => ?_⟩
    obtain ⟨hplace, rfl⟩ := List.getElem?_eq_some_iff.mp hitem
    exact ⟨_, List.getElem?_eq_getElem (hlength ▸ hplace), hrelated place hplace _⟩
  · rintro ⟨hlength, hrelated⟩
    refine ⟨hlength.symm, fun place hitem hvalue => ?_⟩
    obtain ⟨value, hfound, hall⟩ := hrelated place _ (List.getElem?_eq_getElem hitem)
    obtain ⟨_, rfl⟩ := List.getElem?_eq_some_iff.mp hfound
    exact hall

/-! ## Runs with a state -/

theorem bind_run (action : StateM σ α) (next : α → StateM σ β) (state : σ) :
    (action >>= next).run state = (next (action.run state).1).run (action.run state).2 := rfl

theorem map_run (f : α → β) (action : StateM σ α) (state : σ) :
    (f <$> action).run state = (f (action.run state).1, (action.run state).2) := rfl

theorem mapM_cons_run {ι : Type*} (ask : ι → StateM σ β) (item : ι) (rest : List ι) (state : σ) :
    ((item :: rest).mapM ask).run state =
      (((ask item).run state).1 :: ((rest.mapM ask).run ((ask item).run state).2).1,
        ((rest.mapM ask).run ((ask item).run state).2).2) := by
  rw [List.mapM_cons]
  rfl

theorem length_mapM_run (ask : α → StateM σ β) (items : List α) (state : σ) :
    ((items.mapM ask).run state).1.length = items.length := by
  induction items generalizing state with
  | nil => rfl
  | cons item rest ih => rw [mapM_cons_run, List.length_cons, List.length_cons, ih]

/-- What is made of each answer of a traversal can be made of all of them at its end. -/
theorem mapM_map_run (f : β → γ) (ask : α → StateM σ β) (items : List α) (state : σ) :
    (items.mapM fun item => f <$> ask item).run state =
      (((items.mapM ask).run state).1.map f, ((items.mapM ask).run state).2) := by
  induction items generalizing state with
  | nil => rfl
  | cons item rest ih =>
      rw [mapM_cons_run, mapM_cons_run, ih]
      rfl

end ConsumerGroups.Results
