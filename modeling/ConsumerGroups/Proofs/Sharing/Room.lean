import Mathlib.Logic.Function.Basic
import ConsumerGroups.Links

/-! # Links shared by many callers

Any number of callers share one set of slots. A lock guards the slots: a caller that wants a
connection, or wants to close the links, waits until the lock is free, and holds it until it has
its answer. An attempt to connect takes as long as it takes, and meanwhile its caller keeps the
lock. In between, all callers may move in any order.
-/

namespace ConsumerGroups.Sharing

/-- The two sorts of connections. -/
inductive Kind
  | cluster
  | registry
deriving DecidableEq, Repr

/-- What a failed attempt of a sort is reported as. -/
def Kind.context : Kind → Context
  | cluster => .clusterConnection
  | registry => .registryConnection

/-- A connection of either sort. -/
inductive Connection (κ τ : Type)
  | cluster (handle : κ)
  | registry (handle : τ)
deriving DecidableEq, Repr

variable {ι κ τ : Type}

/-- The sort of a connection. -/
def Connection.kind : Connection κ τ → Kind
  | cluster _ => .cluster
  | registry _ => .registry

/-- What a caller comes for. -/
inductive Visit
  | reach (kind : Kind)
  | close
deriving DecidableEq, Repr

/-- What a caller goes away with. -/
inductive Answer (κ τ : Type)
  | reached (kind : Kind) (result : Except Failure (Connection κ τ))
  | closed

/-- Where a caller stands. Only in the first two stages it does not hold the lock. -/
inductive Stage (κ τ : Type)
  | away
  | waiting (visit : Visit)
  | inside (visit : Visit)
  | dialing (kind : Kind)
  | releasing (rest : List (Connection κ τ))
  | leaving (kind : Kind) (result : Except Failure (Connection κ τ))

/-- What can be seen to happen. -/
inductive Event (κ τ : Type)
  | called (visit : Visit)
  | entered (visit : Visit)
  | dialed (kind : Kind)
  | connected (connection : Connection κ τ)
  | failed (kind : Kind) (cause : Cause)
  | shut
  | hungUp (connection : Connection κ τ)
  | left (answer : Answer κ τ)

/-! ## Under the lock -/

/-- The slot of a sort. -/
def held (slots : Slots κ τ) : Kind → Option (Connection κ τ)
  | .cluster => slots.cluster.map .cluster
  | .registry => slots.registry.map .registry

/-- The slots with a connection put into its slot. -/
def fill (slots : Slots κ τ) : Connection κ τ → Slots κ τ
  | .cluster handle => slots.withCluster handle
  | .registry handle => slots.withRegistry handle

/-- The connections that slots hold, the cluster first. -/
def connections (slots : Slots κ τ) : List (Connection κ τ) :=
  (held slots .cluster).toList ++ (held slots .registry).toList

namespace Stage

/-- Whether a caller at this stage holds the lock. -/
def holds : Stage κ τ → Bool
  | away => false
  | waiting _ => false
  | _ => true

end Stage

/-- What a caller that has nothing more to do leaves with. -/
inductive Done (slots : Slots κ τ) : Stage κ τ → Answer κ τ → Prop
  | refused {kind : Kind} (haccess : slots.access (held slots kind) = .closed) :
      Done slots (.inside (.reach kind))
        (.reached kind (.error (.connection kind.context Links.closedCause)))
  | found {kind : Kind} {connection : Connection κ τ}
      (haccess : slots.access (held slots kind) = .connected connection) :
      Done slots (.inside (.reach kind)) (.reached kind (.ok connection))
  | dialed {kind : Kind} {result : Except Failure (Connection κ τ)} :
      Done slots (.leaving kind result) (.reached kind result)
  | shutBefore (hclosed : slots.closed = true) : Done slots (.inside .close) .closed
  | released : Done slots (.releasing []) .closed

/-- The moves of the caller that holds the lock. -/
inductive Move : Slots κ τ → Stage κ τ → Event κ τ → Slots κ τ → Stage κ τ → Prop
  | dial {slots : Slots κ τ} {kind : Kind} (hempty : slots.access (held slots kind) = .empty) :
      Move slots (.inside (.reach kind)) (.dialed kind) slots (.dialing kind)
  | connect {slots : Slots κ τ} (connection : Connection κ τ) :
      Move slots (.dialing connection.kind) (.connected connection) (fill slots connection)
        (.leaving connection.kind (.ok connection))
  | fail {slots : Slots κ τ} {kind : Kind} (cause : Cause) :
      Move slots (.dialing kind) (.failed kind cause) slots
        (.leaving kind (.error (.connection kind.context cause)))
  | shut {slots : Slots κ τ} (hopen : slots.closed = false) :
      Move slots (.inside .close) .shut slots.shut (.releasing (connections slots))
  | hangUp {slots : Slots κ τ} {connection : Connection κ τ} {rest : List (Connection κ τ)} :
      Move slots (.releasing (connection :: rest)) (.hungUp connection) slots (.releasing rest)
  | leave {slots : Slots κ τ} {stage : Stage κ τ} {answer : Answer κ τ}
      (hdone : Done slots stage answer) : Move slots stage (.left answer) slots .away

/-! ## All callers -/

/-- The slots, their lock and the callers around them. -/
structure Room (ι κ τ : Type) where
  slots : Slots κ τ := {}
  locked : Bool := false
  stage : ι → Stage κ τ := fun _ => .away

variable [DecidableEq ι]

/-- A step of one caller: it comes, it takes the lock when that is free, or it moves under the
lock, which it gives back when it leaves. -/
inductive Step : Room ι κ τ → ι × Event κ τ → Room ι κ τ → Prop
  | call {room : Room ι κ τ} {who : ι} (visit : Visit) (haway : room.stage who = .away) :
      Step room (who, .called visit)
        { room with stage := Function.update room.stage who (.waiting visit) }
  | enter {room : Room ι κ τ} {who : ι} {visit : Visit} (hwaiting : room.stage who = .waiting visit)
      (hfree : room.locked = false) :
      Step room (who, .entered visit)
        { room with locked := true, stage := Function.update room.stage who (.inside visit) }
  | work {room : Room ι κ τ} {who : ι} {event : Event κ τ} {slots : Slots κ τ} {stage : Stage κ τ}
      (hmove : Move room.slots (room.stage who) event slots stage) :
      Step room (who, event)
        { slots, locked := stage.holds, stage := Function.update room.stage who stage }

/-- The rooms that steps lead to, with everything that happens on the way. -/
inductive Run : Room ι κ τ → List (ι × Event κ τ) → Room ι κ τ → Prop
  | nil (room : Room ι κ τ) : Run room [] room
  | cons {room next last : Room ι κ τ} {event : ι × Event κ τ} {rest : List (ι × Event κ τ)}
      (hstep : Step room event next) (hrest : Run next rest last) : Run room (event :: rest) last

/-- Runs can be joined. -/
theorem Run.append {start middle last : Room ι κ τ} {first second : List (ι × Event κ τ)}
    (hfirst : Run start first middle) (hsecond : Run middle second last) :
    Run start (first ++ second) last := by
  induction hfirst with
  | nil room => exact hsecond
  | cons hstep _ ih => exact .cons hstep (ih hsecond)

/-- A run can be parted between any two of its events. -/
theorem Run.split {start last : Room ι κ τ} {first second : List (ι × Event κ τ)}
    (hrun : Run start (first ++ second) last) :
    ∃ middle, Run start first middle ∧ Run middle second last := by
  induction first generalizing start with
  | nil => exact ⟨start, .nil start, hrun⟩
  | cons event rest ih =>
      cases hrun with
      | cons hstep hrest =>
          obtain ⟨middle, hfirst, hsecond⟩ := ih hrest
          exact ⟨middle, .cons hstep hfirst, hsecond⟩

/-- A run can be parted before and after any of its events. -/
theorem Run.around {start last : Room ι κ τ} {before after : List (ι × Event κ τ)}
    {event : ι × Event κ τ} (hrun : Run start (before ++ event :: after) last) :
    ∃ room next, Run start before room ∧ Step room event next ∧ Run next after last := by
  obtain ⟨room, hbefore, hrest⟩ := hrun.split
  cases hrest with
  | cons hstep hafter => exact ⟨room, _, hbefore, hstep, hafter⟩

end ConsumerGroups.Sharing
