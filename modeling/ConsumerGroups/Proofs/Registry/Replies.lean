import ConsumerGroups.Canned
import ConsumerGroups.Proofs.Results

/-! # Errands over a registry that does not change

As long as the answers of a registry stay the same, what an errand over it comes to depends on
these answers alone, and so do the calls that the errand makes. Both are the same whether the
registry records its calls or not.
-/

namespace ConsumerGroups

open Canned

variable {σ α β : Type}

/-! ## Steady registries -/

namespace Registry

/-- The states that queries of a registry lead to. -/
inductive Asked (registry : Registry σ) (start : σ) : σ → Prop
  | start : Asked registry start start
  | children {state : σ} (hasked : Asked registry start state) (path : String) :
      Asked registry start ((registry.children path).run state).2
  | read {state : σ} (hasked : Asked registry start state) (path : String) :
      Asked registry start ((registry.read path).run state).2

/-- What a registry answers in a state. -/
def repliesAt (registry : Registry σ) (state : σ) : RegistryReplies where
  children path := ((registry.children path).run state).1
  read path := ((registry.read path).run state).1

/-- A registry whose answers stay what they are, however often it is asked. -/
def Steady (registry : Registry σ) (start : σ) : Prop :=
  ∀ state, registry.Asked start state → registry.repliesAt state = registry.repliesAt start

/-- A registry that gives fixed replies in the states in question, which are told by the calls
made before. -/
structure Gives (registry : Registry σ) (replies : RegistryReplies)
    (holds : List Exchange → σ → Prop) : Prop where
  children : ∀ (before : List Exchange) {state : σ}, holds before state → ∀ path,
    ∃ reached, (registry.children path).run state = (replies.children path, reached) ∧
      holds (before ++ [.children path (replies.children path)]) reached
  read : ∀ (before : List Exchange) {state : σ}, holds before state → ∀ path,
    ∃ reached, (registry.read path).run state = (replies.read path, reached) ∧
      holds (before ++ [.read path (replies.read path)]) reached

/-- A steady registry gives the replies of its first state. -/
theorem Steady.gives {registry : Registry σ} {start : σ} (hsteady : registry.Steady start) :
    registry.Gives (registry.repliesAt start) fun _ state => registry.Asked start state := by
  constructor
  · intro before state hasked path
    have hsame := congrArg (fun replies => replies.children path) (hsteady state hasked)
    exact ⟨_, Prod.ext hsame rfl, hasked.children path⟩
  · intro before state hasked path
    have hsame := congrArg (fun replies => replies.read path) (hsteady state hasked)
    exact ⟨_, Prod.ext hsame rfl, hasked.read path⟩

/-- A recorded registry gives the replies of the one inside, and its log tells the calls. -/
theorem Gives.recorded {registry : Registry σ} {replies : RegistryReplies} {holds : σ → Prop}
    (hgives : registry.Gives replies fun _ state => holds state) :
    registry.recorded.Gives replies fun before recorded =>
      holds recorded.state ∧ recorded.log = before := by
  constructor
  · rintro before ⟨state, log⟩ ⟨hholds, rfl⟩ path
    obtain ⟨reached, hrun, hreached⟩ := hgives.children [] hholds path
    refine ⟨⟨reached, log ++ [.children path (replies.children path)]⟩, ?_, hreached, rfl⟩
    have happlied : registry.children path state = (replies.children path, reached) := hrun
    change Recorded.call _ _ _ = _
    simp only [Recorded.call, happlied]
  · rintro before ⟨state, log⟩ ⟨hholds, rfl⟩ path
    obtain ⟨reached, hrun, hreached⟩ := hgives.read [] hholds path
    refine ⟨⟨reached, log ++ [.read path (replies.read path)]⟩, ?_, hreached, rfl⟩
    have happlied : registry.read path state = (replies.read path, reached) := hrun
    change Recorded.call _ _ _ = _
    simp only [Recorded.call, happlied]

end Registry

/-! ## Errands told by replies -/

/-- An errand that comes to a result and makes some calls over any registry that gives the
replies. -/
structure Told (replies : RegistryReplies) (errand : {σ : Type} → Registry σ → Errand σ α)
    (result : Except Failure α) (calls : List Exchange) : Prop where
  run : ∀ {σ : Type} {registry : Registry σ} {holds : List Exchange → σ → Prop},
    registry.Gives replies holds → ∀ (before : List Exchange) {state : σ}, holds before state →
      ∃ reached, (errand registry).runFrom state = (result, reached) ∧
        holds (before ++ calls) reached

namespace Told

variable {replies : RegistryReplies} {errand : {σ : Type} → Registry σ → Errand σ α}
  {calls more : List Exchange}

theorem ofExcept (result : Except Failure α) :
    Told replies (fun _ => Errand.ofExcept result) result [] := by
  constructor
  intro σ registry holds hgives before state hholds
  refine ⟨state, rfl, ?_⟩
  simpa using hholds

/-- What is made of a listing is told by the listing. -/
theorem ofChildren (f : Except RegistryFault (List String) → Except Failure α) (path : String) :
    Told replies (fun registry => ExceptT.mk (f <$> registry.children path))
      (f (replies.children path)) [.children path (replies.children path)] := by
  constructor
  intro σ registry holds hgives before state hholds
  obtain ⟨reached, hrun, hreached⟩ := hgives.children before hholds path
  refine ⟨reached, ?_, hreached⟩
  change (f <$> registry.children path).run state = _
  rw [Results.map_run, hrun]

/-- What is made of the bytes of a node is told by the bytes. -/
theorem ofRead (f : Except RegistryFault (List UInt8) → Except Failure α) (path : String) :
    Told replies (fun registry => ExceptT.mk (f <$> registry.read path))
      (f (replies.read path)) [.read path (replies.read path)] := by
  constructor
  intro σ registry holds hgives before state hholds
  obtain ⟨reached, hrun, hreached⟩ := hgives.read before hholds path
  refine ⟨reached, ?_, hreached⟩
  change (f <$> registry.read path).run state = _
  rw [Results.map_run, hrun]

theorem bind_ok {next : {σ : Type} → Registry σ → α → Errand σ β} {value : α}
    {result : Except Failure β} (herrand : Told replies errand (.ok value) calls)
    (hnext : Told replies (fun registry => next registry value) result more) :
    Told replies (fun registry => errand registry >>= next registry) result (calls ++ more) := by
  constructor
  intro σ registry holds hgives before state hholds
  obtain ⟨middle, hrun, hmiddle⟩ := herrand.run hgives before hholds
  obtain ⟨reached, hrest, hreached⟩ := hnext.run hgives (before ++ calls) hmiddle
  refine ⟨reached, ?_, by rwa [← List.append_assoc]⟩
  rw [Errand.runFrom_bind, hrun]
  exact hrest

theorem bind_error {next : {σ : Type} → Registry σ → α → Errand σ β} {failure : Failure}
    (herrand : Told replies errand (.error failure) calls) :
    Told replies (fun registry => errand registry >>= next registry) (.error failure) calls := by
  constructor
  intro σ registry holds hgives before state hholds
  obtain ⟨reached, hrun, hreached⟩ := herrand.run hgives before hholds
  refine ⟨reached, ?_, hreached⟩
  rw [Errand.runFrom_bind, hrun]

/-- Over a registry that does not change, the replies tell the result, and the calls are those
that the registry records. -/
theorem of_steady {registry : Registry σ} {start : σ} {result : Except Failure α}
    (herrand : Told (registry.repliesAt start) errand result calls)
    (hsteady : registry.Steady start) :
    ((errand registry).runFrom start).1 = result ∧
      ((errand registry.recorded).runFrom ⟨start, []⟩).2.log = calls := by
  have hasked : registry.Asked start start := .start
  have hunasked : registry.Asked start (Recorded.mk start []).state ∧
      (Recorded.mk start []).log = [] := ⟨hasked, rfl⟩
  obtain ⟨reached, hrun, -⟩ := herrand.run hsteady.gives [] hasked
  obtain ⟨recorded, hrecorded, -, hlog⟩ := herrand.run hsteady.gives.recorded [] hunasked
  rw [hrun, hrecorded]
  exact ⟨rfl, hlog⟩

theorem attempt {result : Except Failure α} (herrand : Told replies errand result calls) :
    Told replies (fun registry => (errand registry).attempt) (.ok result) calls := by
  constructor
  intro σ registry holds hgives before state hholds
  obtain ⟨reached, hrun, hreached⟩ := herrand.run hgives before hholds
  refine ⟨reached, ?_, hreached⟩
  rw [Errand.runFrom_attempt, hrun]

end Told

/-- The calls that steps over some items make until one of them fails. -/
def callsUntil (step : β → α → Except Failure β) (calls : α → List Exchange) :
    β → List α → List Exchange
  | _, [] => []
  | value, item :: rest =>
    calls item ++
      match step value item with
      | .ok next => callsUntil step calls next rest
      | .error _ => []

/-- Steps that are told by replies are told by them together, up to the first that fails. -/
theorem Told.foldlM {replies : RegistryReplies}
    {next : {σ : Type} → Registry σ → β → α → Errand σ β} {step : β → α → Except Failure β}
    {calls : α → List Exchange}
    (hnext : ∀ value item,
      Told replies (fun registry => next registry value item) (step value item) (calls item))
    (items : List α) (start : β) :
    Told replies (fun registry => items.foldlM (next registry) start) (items.foldlM step start)
      (callsUntil step calls start items) := by
  induction items generalizing start with
  | nil => exact Told.ofExcept (.ok start)
  | cons item rest ih =>
      have hfirst := hnext start item
      simp only [List.foldlM_cons, callsUntil]
      cases hstep : step start item with
      | ok value =>
          rw [hstep] at hfirst
          exact hfirst.bind_ok (ih value)
      | error failure =>
          rw [hstep] at hfirst
          rw [List.append_nil]
          exact hfirst.bind_error

end ConsumerGroups
