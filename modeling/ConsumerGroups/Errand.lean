import ConsumerGroups.Failure

/-! # Errands

An errand talks to its collaborators and may fail. The collaborators live in a state of their
own kind, which an errand passes through in the order of its calls. So an errand is a function
of that state, and a failure keeps the state reached so far.
-/

namespace ConsumerGroups

/-- What a collaborator answers to one call: a value, or why the transport failed. -/
abbrev Reply (α : Type) := Except Cause α

/-- A computation over collaborators in the state `σ`. -/
abbrev Errand (σ α : Type) := ExceptT Failure (StateM σ) α

namespace Errand

variable {σ α : Type}

def runFrom (errand : Errand σ α) (state : σ) : Except Failure α × σ :=
  StateT.run (ExceptT.run errand) state

/-- Turns a result into an errand that calls nobody. -/
def ofExcept (result : Except Failure α) : Errand σ α :=
  ExceptT.mk (pure result)

/-- Waits for an answer; a transport failure becomes a failure of the given context. -/
def await (context : Context) (reply : StateM σ (Reply α)) : Errand σ α :=
  ExceptT.mk do return (← reply).mapError (.connection context)

/-- Runs an errand to its end and keeps its failure as a value. -/
def attempt (errand : Errand σ α) : Errand σ (Except Failure α) :=
  ExceptT.mk do return .ok (← ExceptT.run errand)

/-! ## Runs -/

variable {β : Type}

@[simp] theorem runFrom_pure (value : α) (state : σ) :
    (pure value : Errand σ α).runFrom state = (.ok value, state) := rfl

@[simp] theorem runFrom_throw (failure : Failure) (state : σ) :
    (throw failure : Errand σ α).runFrom state = (.error failure, state) := rfl

@[simp] theorem runFrom_ofExcept (result : Except Failure α) (state : σ) :
    (ofExcept result : Errand σ α).runFrom state = (result, state) := rfl

/-- A failure of the first part ends the run in the state reached. -/
theorem runFrom_bind (errand : Errand σ α) (next : α → Errand σ β) (state : σ) :
    (errand >>= next).runFrom state =
      match errand.runFrom state with
      | (.ok value, reached) => (next value).runFrom reached
      | (.error failure, reached) => (.error failure, reached) := by
  simp only [runFrom, ExceptT.run_bind, StateT.run_bind]
  rcases hrun : (ExceptT.run errand).run state with ⟨result, reached⟩
  cases result <;> rfl

theorem runFrom_await (context : Context) (reply : StateM σ (Reply α)) (state : σ) :
    (await context reply).runFrom state =
      ((reply state).1.mapError (Failure.connection context), (reply state).2) := rfl

/-- A reply that fails is a failure of the connection, and ends the run in the state reached. -/
theorem runFrom_await_bind (context : Context) (reply : StateM σ (Reply α))
    (next : α → Errand σ β) (state : σ) :
    (await context reply >>= next).runFrom state =
      match reply.run state with
      | (.ok value, reached) => (next value).runFrom reached
      | (.error cause, reached) => (.error (.connection context cause), reached) := by
  rw [runFrom_bind, runFrom_await, StateT.run]
  rcases reply state with ⟨cause | value, reached⟩ <;> rfl

@[simp] theorem runFrom_attempt (errand : Errand σ α) (state : σ) :
    errand.attempt.runFrom state = (.ok (errand.runFrom state).1, (errand.runFrom state).2) := rfl

end Errand

end ConsumerGroups
