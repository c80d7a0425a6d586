import Mathlib.Algebra.BigOperators.Group.List.Basic
import Mathlib.Algebra.Group.Action.Defs
import Mathlib.Tactic.Abel
import ConsumerGroups.Proofs.Keeping

/-! # Threads over one state

A thread makes calls on a state one after another; between two of its calls other threads may make
theirs. If all that calls leave behind in the state are traces that add up, and no call answers
differently because of such traces, then neither the order of the threads nor their interleaving
matters: each has the answers that it has alone, and the traces of all of them are left behind.
-/

namespace ConsumerGroups

/-- A computation that makes calls one after another. Others may act in between. -/
inductive Thread (σ α : Type) : Type 1
  | done (value : α)
  | call {β : Type} (action : StateM σ β) (next : β → Thread σ α)

namespace Thread

variable {σ α β : Type}

/-- Makes all calls, with nobody in between. -/
def run : Thread σ α → StateM σ α
  | done value => pure value
  | call action next => do (next (← action)).run

/-- Goes on with another thread. -/
def bind (thread : Thread σ α) (next : α → Thread σ β) : Thread σ β :=
  match thread with
  | done value => next value
  | call action rest => call action fun answer => (rest answer).bind next

theorem run_bind (thread : Thread σ α) (next : α → Thread σ β) :
    (thread.bind next).run = thread.run >>= fun value => (next value).run := by
  induction thread with
  | done value => rfl
  | call action rest ih =>
      funext state
      exact congrFun (ih (action.run state).1) (action.run state).2

/-- A thread that makes calls of one kind only, and ends with a value of some kind. -/
inductive Makes (calls : (β : Type) → StateM σ β → Prop) (ends : α → Prop) : Thread σ α → Prop
  | done {value : α} (hends : ends value) : Makes calls ends (.done value)
  | call {β : Type} {action : StateM σ β} {next : β → Thread σ α} (hcall : calls β action)
      (hnext : ∀ state, Makes calls ends (next (action.run state).1)) :
      Makes calls ends (.call action next)

theorem Makes.bind {calls : (β : Type) → StateM σ β → Prop} {ends : α → Prop} {goals : β → Prop}
    {thread : Thread σ α} {next : α → Thread σ β} (hthread : thread.Makes calls ends)
    (hnext : ∀ value, ends value → (next value).Makes calls goals) :
    (thread.bind next).Makes calls goals := by
  induction hthread with
  | done hends => exact hnext _ hends
  | call hcall _ ih => exact .call hcall ih

end Thread

/-! ## Actions made of calls -/

/-- A failure, or a value of some kind. -/
def IfOk {ε α : Type} (ends : α → Prop) : Except ε α → Prop
  | .ok value => ends value
  | .error _ => True

theorem ifOk_true {ε α : Type} (result : Except ε α) : IfOk (fun _ => True) result := by
  cases result <;> trivial

/-- An action that makes calls of one kind only, one after another, and ends with a value of some
kind. -/
def MadeOf {σ α : Type} (calls : (β : Type) → StateM σ β → Prop) (ends : α → Prop)
    (action : StateM σ α) : Prop :=
  ∃ thread : Thread σ α, thread.Makes calls ends ∧ thread.run = action

/-- An action that does not notice a change of the state, and leaves it as it is. -/
def Commutes {σ α : Type} (change : σ → σ) (action : StateM σ α) : Prop :=
  ∀ state, action.run (change state) = ((action.run state).1, change (action.run state).2)

namespace MadeOf

variable {σ α β : Type} {calls : (β : Type) → StateM σ β → Prop} {ends : α → Prop}
  {goals : β → Prop}

theorem pure {value : α} (hends : ends value) :
    MadeOf calls ends (Pure.pure value : StateM σ α) :=
  ⟨.done value, .done hends, rfl⟩

theorem call {action : StateM σ α} (hcall : calls α action)
    (hends : ∀ state, ends (action.run state).1) : MadeOf calls ends action :=
  ⟨.call action .done, .call hcall fun state => .done (hends state), rfl⟩

theorem bind {action : StateM σ α} {next : α → StateM σ β} (haction : MadeOf calls ends action)
    (hnext : ∀ value, ends value → MadeOf calls goals (next value)) :
    MadeOf calls goals (action >>= next) := by
  obtain ⟨thread, hmakes, rfl⟩ := haction
  -- What would follow on a value that the action never ends with does not matter.
  have hrests (value : α) : ∃ rest : Thread σ β,
      (ends value → rest.Makes calls goals) ∧ rest.run = next value := by
    by_cases hends : ends value
    · obtain ⟨rest, hrest, hrun⟩ := hnext value hends
      exact ⟨rest, fun _ => hrest, hrun⟩
    · exact ⟨.call (next value) .done, fun hvalue => absurd hvalue hends, rfl⟩
  choose rest hrest hrun using hrests
  exact ⟨thread.bind rest, hmakes.bind hrest, by simp only [Thread.run_bind, hrun]⟩

theorem answer {action : StateM σ α} (haction : MadeOf calls ends action) (wrap : α → β) :
    MadeOf calls (fun _ => True) (action >>= fun value => Pure.pure (wrap value)) :=
  haction.bind fun _ _ => pure trivial

theorem mapM {ask : α → StateM σ β} {items : List α}
    (hask : ∀ item ∈ items, MadeOf calls (fun _ => True) (ask item)) :
    MadeOf calls (fun _ => True) (items.mapM ask) := by
  induction items with
  | nil => exact pure trivial
  | cons item rest ih =>
      obtain ⟨hitem, hrest⟩ := List.forall_mem_cons.mp hask
      rw [List.mapM_cons]
      exact hitem.bind fun _ _ => (ih hrest).bind fun _ _ => pure trivial

theorem mono {calls' : (β : Type) → StateM σ β → Prop} {action : StateM σ α}
    (haction : MadeOf calls ends action)
    (hcalls : ∀ (β : Type) (action : StateM σ β), calls β action → calls' β action) :
    MadeOf calls' ends action := by
  obtain ⟨thread, hmakes, rfl⟩ := haction
  refine ⟨thread, ?_, rfl⟩
  induction hmakes with
  | done hends => exact .done hends
  | call hcall _ ih => exact .call (hcalls _ _ hcall) ih

/-- What all calls leave as it is, an action made of them leaves as it is. -/
theorem keeps {γ : Type} {view : σ → γ} {action : StateM σ α} (haction : MadeOf calls ends action)
    (hcalls : ∀ (β : Type) (action : StateM σ β), calls β action → Keeps view action) :
    Keeps view action := by
  obtain ⟨thread, hmakes, rfl⟩ := haction
  induction hmakes with
  | done => exact .pure _
  | @call β action next hcall _ ih =>
      intro state
      exact (ih state (action.run state).2).trans (hcalls _ _ hcall state)

/-- A change of the state that no call notices is not noticed by an action made of them. -/
theorem commutes {change : σ → σ} {action : StateM σ α} (haction : MadeOf calls ends action)
    (hcalls : ∀ (β : Type) (action : StateM σ β), calls β action → Commutes change action) :
    Commutes change action := by
  obtain ⟨thread, hmakes, rfl⟩ := haction
  induction hmakes with
  | done => exact fun _ => rfl
  | @call β action next hcall _ ih =>
      intro state
      rw [Thread.run, Results.bind_run, Results.bind_run, hcalls _ _ hcall state]
      exact ih state (action.run state).2

/-! ### Errands -/

theorem errand_bind {errand : Errand σ α} {next : α → Errand σ β}
    (herrand : MadeOf calls (IfOk ends) errand.run)
    (hnext : ∀ value, ends value → MadeOf calls (IfOk goals) (next value).run) :
    MadeOf calls (IfOk goals) (errand >>= next).run := by
  rw [ExceptT.run_bind]
  refine herrand.bind fun result hresult => ?_
  cases result with
  | error failure => exact pure trivial
  | ok value => exact hnext value hresult

theorem await {reply : StateM σ (Reply α)} (hreply : MadeOf calls (IfOk ends) reply)
    (context : Context) : MadeOf calls (IfOk ends) (Errand.await context reply).run := by
  refine hreply.bind fun answer hanswer => pure ?_
  cases answer with
  | error cause => trivial
  | ok value => exact hanswer

theorem errand_foldlM {next : β → α → Errand σ β}
    (hnext : ∀ value item, MadeOf calls (IfOk fun _ => True) (next value item).run)
    (items : List α) (start : β) :
    MadeOf calls (IfOk fun _ => True) (items.foldlM next start).run := by
  induction items generalizing start with
  | nil => exact pure trivial
  | cons item rest ih =>
      rw [List.foldlM_cons]
      exact (hnext start item).errand_bind fun value _ => ih value

end MadeOf

/-! ## Traces -/

section Traces

variable {σ α E : Type} [AddCommMonoid E] [AddAction E σ]

/-- An action that, from some start on, has the same answer and leaves the same trace, whatever
traces others have left before. -/
def LeavesBehind (start : σ) (action : StateM σ α) (answer : α) (trace : E) : Prop :=
  ∀ others : E, action.run (others +ᵥ start) = (answer, trace +ᵥ others +ᵥ start)

/-- What a thread comes to, and the traces that it leaves on the way. -/
inductive Thread.ComesTo (start : σ) : Thread σ α → α → E → Prop
  | done {value : α} : ComesTo start (.done value) value 0
  | call {β : Type} {action : StateM σ β} {next : β → Thread σ α} {answer : β} {value : α}
      {trace rest : E} (hleaves : LeavesBehind start action answer trace)
      (hnext : ComesTo start (next answer) value rest) :
      ComesTo start (.call action next) value (rest + trace)

theorem Thread.ComesTo.of_call {start : σ} {β : Type} {action : StateM σ β} {next : β → Thread σ α}
    {value : α} {total : E} (hcomes : (Thread.call action next).ComesTo start value total) :
    ∃ answer, ∃ trace rest : E, LeavesBehind start action answer trace ∧
      (next answer).ComesTo start value rest ∧ total = rest + trace := by
  cases hcomes with
  | call hleaves hnext => exact ⟨_, _, _, hleaves, hnext, rfl⟩

theorem Thread.ComesTo.of_done {start : σ} {value result : α} {total : E}
    (hcomes : (Thread.done result).ComesTo start value total) : value = result ∧ total = 0 := by
  cases hcomes
  exact ⟨rfl, rfl⟩

/-- A thread that is not disturbed is an action with one answer and one trace. -/
theorem Thread.ComesTo.leaves {start : σ} {thread : Thread σ α} {value : α} {trace : E}
    (hcomes : thread.ComesTo start value trace) : LeavesBehind start thread.run value trace := by
  induction hcomes with
  | done =>
      intro others
      rw [zero_vadd]
      rfl
  | @call _ action next answer _ trace rest hleaves _ ih =>
      intro others
      -- To the calls that follow, the trace of this one is like a trace of others.
      have hcall := hleaves others
      have hrest := ih (trace + others)
      rw [add_vadd] at hrest
      rw [add_vadd, Thread.run, Results.bind_run, hcall]
      exact hrest

/-- A thread whose calls are not disturbed comes to something. -/
theorem Thread.Makes.exists_comesTo {calls : (β : Type) → StateM σ β → Prop} {ends : α → Prop}
    {thread : Thread σ α} (hmakes : thread.Makes calls ends) {start : σ}
    (hcalls : ∀ (β : Type) (action : StateM σ β), calls β action →
      ∃ answer, ∃ trace : E, LeavesBehind start action answer trace) :
    ∃ value, ∃ trace : E, thread.ComesTo start value trace := by
  induction hmakes with
  | done => exact ⟨_, 0, .done⟩
  | call hcall _ ih =>
      obtain ⟨answer, trace, hleaves⟩ := hcalls _ _ hcall
      have hanswer := hleaves 0
      obtain ⟨value, rest, hnext⟩ := ih ((0 : E) +ᵥ start)
      rw [hanswer] at hnext
      exact ⟨value, rest + trace, .call hleaves hnext⟩

/-- Actions that do not disturb one another are done in order: each has its own answer, and their
traces add up. -/
theorem mapM_leaves {ι : Type*} {start : σ} {act : ι → StateM σ α} {items : List ι}
    {outcomes : List (α × E)}
    (hleaves : List.Forall₂ (fun item outcome => LeavesBehind start (act item) outcome.1 outcome.2)
      items outcomes) :
    LeavesBehind start (items.mapM act) (outcomes.map (·.1)) (outcomes.map (·.2)).sum := by
  induction hleaves with
  | nil =>
      intro others
      rw [List.map_nil, List.map_nil, List.sum_nil, zero_vadd]
      rfl
  | @cons item outcome _ _ hitem _ ih =>
      intro others
      have hothers := ih (outcome.2 + others)
      rw [add_vadd] at hothers
      rw [Results.mapM_cons_run, hitem others, hothers, List.map_cons, List.map_cons,
        List.sum_cons, add_comm, add_vadd]

/-- If each of some threads comes to something, so do all of them. -/
theorem exists_outcomes {start : σ} {threads : List (Thread σ α)}
    (hcomes : ∀ thread ∈ threads, ∃ value, ∃ trace : E, thread.ComesTo start value trace) :
    ∃ outcomes : List (α × E),
      List.Forall₂ (fun thread outcome => thread.ComesTo start outcome.1 outcome.2)
        threads outcomes := by
  induction threads with
  | nil => exact ⟨[], .nil⟩
  | cons thread rest ih =>
      obtain ⟨⟨value, trace, hthread⟩, hrest⟩ := List.forall_mem_cons.mp hcomes
      obtain ⟨outcomes, hall⟩ := ih hrest
      exact ⟨(value, trace) :: outcomes, .cons hthread hall⟩

end Traces

/-! ## Interleavings -/

section Interleavings

variable {σ α E : Type}

/-- One of several threads makes its next call. -/
inductive Thread.Step : List (Thread σ α) → σ → List (Thread σ α) → σ → Prop
  | head {β : Type} {action : StateM σ β} {next : β → Thread σ α} (rest : List (Thread σ α))
      (state : σ) :
      Step (.call action next :: rest) state (next (action.run state).1 :: rest)
        (action.run state).2
  | tail {threads later : List (Thread σ α)} {state last : σ} (thread : Thread σ α)
      (hstep : Step threads state later last) :
      Step (thread :: threads) state (thread :: later) last

/-- Threads make their calls one at a time, whoever is next. -/
inductive Interleaves : List (Thread σ α) → σ → List (Thread σ α) → σ → Prop
  | none {threads : List (Thread σ α)} {state : σ} : Interleaves threads state threads state
  | step {threads middle later : List (Thread σ α)} {state reached last : σ}
      (hstep : Thread.Step threads state middle reached)
      (hrest : Interleaves middle reached later last) : Interleaves threads state later last

theorem Interleaves.cons {threads later : List (Thread σ α)} {state last : σ}
    (hall : Interleaves threads state later last) (thread : Thread σ α) :
    Interleaves (thread :: threads) state (thread :: later) last := by
  induction hall with
  | none => exact .none
  | step hstep _ ih => exact .step (hstep.tail thread) ih

/-- Threads that are under way can always be brought to their ends. -/
theorem exists_interleaving (threads : List (Thread σ α)) (state : σ) :
    ∃ (values : List α) (last : σ), Interleaves threads state (values.map .done) last := by
  induction threads generalizing state with
  | nil => exact ⟨[], state, .none⟩
  | cons thread rest ih =>
      induction thread generalizing state with
      | done value =>
          obtain ⟨values, last, hrest⟩ := ih state
          exact ⟨value :: values, last, hrest.cons (.done value)⟩
      | call action next inner =>
          obtain ⟨values, last, hrest⟩ := inner (action.run state).1 (action.run state).2
          exact ⟨values, last, .step (.head rest state) hrest⟩

variable [AddCommMonoid E] [AddAction E σ]

/-- A call moves its trace from what is still to come to what has been left. -/
theorem Thread.Step.outcomes {start : σ} {threads later : List (Thread σ α)} {state last : σ}
    (hstep : Thread.Step threads state later last) {outcomes : List (α × E)} {left : E}
    (hcomes : List.Forall₂ (fun thread outcome => thread.ComesTo start outcome.1 outcome.2)
      threads outcomes) (hstate : state = left +ᵥ start) :
    ∃ (rest : List (α × E)) (more : E),
      List.Forall₂ (fun thread outcome => thread.ComesTo start outcome.1 outcome.2) later rest ∧
        last = more +ᵥ start ∧ rest.map (·.1) = outcomes.map (·.1) ∧
        (rest.map (·.2)).sum + more = (outcomes.map (·.2)).sum + left := by
  induction hstep generalizing outcomes with
  | head others state =>
      obtain _ | ⟨hthread, hothers⟩ := hcomes
      rename_i outcome outcomes
      -- Only the first thread has moved: its call has left its trace, which is no longer to come.
      obtain ⟨answer, trace, rest, hleaves, hnext, htotal⟩ := hthread.of_call
      subst hstate
      rw [hleaves left]
      refine ⟨(outcome.1, rest) :: outcomes, trace + left, .cons hnext hothers, ?_, rfl, ?_⟩
      · rw [add_vadd]
      · simp only [List.map_cons, List.sum_cons, htotal]
        abel
  | tail thread _ ih =>
      obtain _ | ⟨hthread, hothers⟩ := hcomes
      rename_i outcome outcomes
      obtain ⟨rest, more, hrest, hlast, hvalues, htraces⟩ := ih hothers hstate
      refine ⟨outcome :: rest, more, .cons hthread hrest, hlast, by simp [hvalues], ?_⟩
      simp only [List.map_cons, List.sum_cons, add_assoc, htraces]

/-- Threads that are done have left all their traces. -/
theorem outcomes_of_done {start : σ} {values : List α} {outcomes : List (α × E)}
    (hcomes : List.Forall₂ (fun thread outcome => thread.ComesTo start outcome.1 outcome.2)
      (values.map .done : List (Thread σ α)) outcomes) :
    outcomes.map (·.1) = values ∧ (outcomes.map (·.2)).sum = 0 := by
  induction values generalizing outcomes with
  | nil =>
      cases hcomes
      exact ⟨rfl, rfl⟩
  | cons value rest ih =>
      obtain _ | ⟨hthread, hothers⟩ := hcomes
      obtain ⟨hvalues, htraces⟩ := ih hothers
      obtain ⟨hvalue, htrace⟩ := hthread.of_done
      exact ⟨by rw [List.map_cons, hvalue, hvalues],
        by rw [List.map_cons, List.sum_cons, htrace, htraces, add_zero]⟩

/-- However threads are interleaved, each comes to what it comes to alone, and their traces add
up. -/
theorem Interleaves.outcomes {start : σ} {threads : List (Thread σ α)} {values : List α}
    {state last : σ} (hall : Interleaves threads state (values.map .done) last)
    {outcomes : List (α × E)} {left : E}
    (hcomes : List.Forall₂ (fun thread outcome => thread.ComesTo start outcome.1 outcome.2)
      threads outcomes) (hstate : state = left +ᵥ start) :
    values = outcomes.map (·.1) ∧ last = ((outcomes.map (·.2)).sum + left) +ᵥ start := by
  generalize hlater : (values.map .done : List (Thread σ α)) = later at hall
  induction hall generalizing outcomes left with
  | none =>
      subst hlater
      obtain ⟨hvalues, htraces⟩ := outcomes_of_done hcomes
      exact ⟨hvalues.symm, by rw [htraces, zero_add, hstate]⟩
  | step hstep _ ih =>
      obtain ⟨rest, more, hrest, hreached, hvalues, htraces⟩ := hstep.outcomes hcomes hstate
      obtain ⟨hsame, hlast⟩ := ih hrest hreached hlater
      exact ⟨hsame.trans hvalues, by rw [hlast, htraces]⟩

/-- However threads that are not disturbed are interleaved, they come to what they come to one after
another. -/
theorem Interleaves.eq_mapM {start : σ} {threads : List (Thread σ α)} {values : List α} {last : σ}
    (hall : Interleaves threads start (values.map .done) last)
    (hcomes : ∀ thread ∈ threads, ∃ value, ∃ trace : E, thread.ComesTo start value trace) :
    (threads.mapM Thread.run).run start = (values, last) := by
  obtain ⟨outcomes, houtcomes⟩ := exists_outcomes hcomes
  obtain ⟨hvalues, hlast⟩ := hall.outcomes houtcomes (zero_vadd E start).symm
  have hleaves := mapM_leaves (houtcomes.imp fun _ _ hthread => hthread.leaves) (0 : E)
  rw [zero_vadd] at hleaves
  rw [hleaves, hvalues, hlast, add_zero]

end Interleavings

end ConsumerGroups
