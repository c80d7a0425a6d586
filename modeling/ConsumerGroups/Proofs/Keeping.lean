import ConsumerGroups.Ownership.Scan
import ConsumerGroups.Proofs.Results

/-! # Actions that keep a view of their state

An action keeps a view of its state if the view is the same afterwards, whatever the state and
the answer. Actions made of such actions do so as well, and what they answer on the way is what
they would answer in some state of the same view.
-/

namespace ConsumerGroups

variable {σ α β γ : Type}

/-- An action that leaves a view of its state as it is. -/
def Keeps (view : σ → γ) (action : StateM σ α) : Prop :=
  ∀ state, view (action.run state).2 = view state

namespace Keeps

variable {view : σ → γ}

theorem pure (value : α) : Keeps view (Pure.pure value : StateM σ α) :=
  fun _ => rfl

theorem bind {action : StateM σ α} {next : α → StateM σ β} (haction : Keeps view action)
    (hnext : ∀ value, Keeps view (next value)) : Keeps view (action >>= next) := by
  intro state
  exact (hnext _ _).trans (haction state)

theorem map {action : StateM σ α} (haction : Keeps view action) (f : α → β) :
    Keeps view (f <$> action) :=
  haction

theorem mapM {ask : α → StateM σ β} {items : List α} (hask : ∀ item ∈ items, Keeps view (ask item)) :
    Keeps view (items.mapM ask) := by
  intro state
  induction items generalizing state with
  | nil => rfl
  | cons item rest ih =>
      have hrest := ih fun other hother => hask other (List.mem_cons_of_mem item hother)
      rw [Results.mapM_cons_run]
      exact (hrest _).trans (hask item List.mem_cons_self state)

/-- Every answer of a traversal was given in a state of the same view. -/
theorem exists_asked {ask : α → StateM σ β} {items : List α}
    (hask : ∀ item ∈ items, Keeps view (ask item)) {state : σ} {answer : β}
    (hanswer : answer ∈ ((items.mapM ask).run state).1) :
    ∃ item ∈ items, ∃ reached, view reached = view state ∧ ((ask item).run reached).1 = answer := by
  induction items generalizing state with
  | nil => cases hanswer
  | cons item rest ih =>
      rw [Results.mapM_cons_run] at hanswer
      rcases List.mem_cons.mp hanswer with rfl | hrest
      · exact ⟨item, List.mem_cons_self, state, rfl, rfl⟩
      · obtain ⟨other, hother, reached, hview, hasked⟩ :=
          ih (fun other hother => hask other (List.mem_cons_of_mem item hother)) hrest
        have hfirst := hask item List.mem_cons_self state
        exact ⟨other, List.mem_cons_of_mem item hother, reached, hview.trans hfirst, hasked⟩

/-- A fold of steps that leave a view as it is leaves it as it is. -/
theorem foldl (view : σ → γ) {step : σ → α → σ} {items : List α}
    (hstep : ∀ item ∈ items, ∀ state, view (step state item) = view state) (state : σ) :
    view (items.foldl step state) = view state := by
  induction items generalizing state with
  | nil => rfl
  | cons item rest ih =>
      have hrest := ih fun other hother => hstep other (List.mem_cons_of_mem item hother)
      exact (hrest _).trans (hstep item List.mem_cons_self state)

/-! ## Errands -/

theorem errand_bind {errand : Errand σ α} {next : α → Errand σ β} (herrand : Keeps view errand.run)
    (hnext : ∀ value, Keeps view (next value).run) : Keeps view (errand >>= next).run := by
  rw [ExceptT.run_bind]
  apply herrand.bind
  intro result
  cases result with
  | error failure => exact Keeps.pure _
  | ok value => exact hnext value

theorem await {reply : StateM σ (Reply α)} (hreply : Keeps view reply) (context : Context) :
    Keeps view (Errand.await context reply).run :=
  hreply.bind fun _ => Keeps.pure _

theorem attempt {errand : Errand σ α} (herrand : Keeps view errand.run) :
    Keeps view errand.attempt.run :=
  herrand.bind fun _ => Keeps.pure _

theorem errand_foldlM {next : β → α → Errand σ β}
    (hnext : ∀ value item, Keeps view (next value item).run) (items : List α) (start : β) :
    Keeps view (items.foldlM next start).run := by
  induction items generalizing start with
  | nil => exact Keeps.pure _
  | cons item rest ih =>
      rw [List.foldlM_cons]
      exact errand_bind (hnext start item) ih

end Keeps

/-! ## Scans of the registry -/

/-- A registry whose queries leave a view of the state as it is. -/
structure Registry.QueriesKeep (registry : Registry σ) (view : σ → γ) : Prop where
  children : ∀ path, Keeps view (registry.children path)
  read : ∀ path, Keeps view (registry.read path)

namespace Ownership

variable {view : σ → γ} {registry : Registry σ}

/-- A scan keeps what the queries of the registry keep. -/
theorem keeps_scan (hregistry : registry.QueriesKeep view) (chroot group topic : String) :
    Keeps view (scan registry chroot group topic).run := by
  refine Keeps.errand_bind ?_ fun nodes => Keeps.errand_foldlM (fun ownership node => ?_) nodes ∅
  · apply (hregistry.children _).bind
    intro listing
    cases listing with
    | ok nodes => exact Keeps.pure _
    | error fault => cases fault <;> exact Keeps.pure _
  · apply Keeps.errand_bind (Keeps.pure _)
    intro partition
    refine Keeps.errand_bind ?_ fun client => Keeps.pure _
    exact (hregistry.read _).bind fun _ => Keeps.pure _

theorem keeps_scanGroups (hregistry : registry.QueriesKeep view) (chroot topic : String) :
    Keeps view (scanGroups registry chroot topic).run := by
  refine Keeps.errand_bind ?_ fun groups => Keeps.errand_foldlM (fun found group => ?_) groups ∅
  · exact (hregistry.children _).bind fun _ => Keeps.pure _
  · apply Keeps.errand_bind (keeps_scan hregistry chroot group topic).attempt
    intro result
    cases result with
    | ok ownership => exact Keeps.pure _
    | error failure =>
        dsimp only
        split <;> exact Keeps.pure _

end Ownership

end ConsumerGroups
