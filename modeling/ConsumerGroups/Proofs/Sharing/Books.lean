import Mathlib.Data.List.Basic
import ConsumerGroups.Proofs.Links
import ConsumerGroups.Proofs.Sharing.Room

/-! # The books of shared links

At any time, every connection that was ever made is in its slot, or was hung up, or is about to
be hung up by the caller that closes the links. The lock lets one caller at a time change this,
so what its moves preserve every interleaving preserves.
-/

namespace ConsumerGroups.Sharing

variable {ι κ τ : Type}

/-- The connection that an event makes. -/
def Event.made? : Event κ τ → Option (Connection κ τ)
  | connected connection => some connection
  | _ => none

/-- The connection that an event ends. -/
def Event.ended? : Event κ τ → Option (Connection κ τ)
  | hungUp connection => some connection
  | _ => none

/-- The connections of a sort that were made, in order. -/
def opened (kind : Kind) (events : List (ι × Event κ τ)) : List (Connection κ τ) :=
  (events.filterMap (·.2.made?)).filter (·.kind = kind)

/-- The connections of a sort that were hung up, in order. -/
def hungUp (kind : Kind) (events : List (ι × Event κ τ)) : List (Connection κ τ) :=
  (events.filterMap (·.2.ended?)).filter (·.kind = kind)

theorem mem_opened {kind : Kind} {events : List (ι × Event κ τ)} {connection : Connection κ τ} :
    connection ∈ opened kind events ↔
      connection.kind = kind ∧ ∃ who, (who, Event.connected connection) ∈ events := by
  have hmade (event : Event κ τ) :
      event.made? = some connection ↔ event = .connected connection := by
    cases event <;> simp [Event.made?]
  simp [opened, hmade, and_comm]

theorem mem_hungUp {kind : Kind} {events : List (ι × Event κ τ)} {connection : Connection κ τ} :
    connection ∈ hungUp kind events ↔
      connection.kind = kind ∧ ∃ who, (who, Event.hungUp connection) ∈ events := by
  have hended (event : Event κ τ) :
      event.ended? = some connection ↔ event = .hungUp connection := by
    cases event <;> simp [Event.ended?]
  simp [hungUp, hended, and_comm]

theorem opened_append (kind : Kind) (first second : List (ι × Event κ τ)) :
    opened kind (first ++ second) = opened kind first ++ opened kind second := by
  rw [opened, List.filterMap_append, List.filter_append]
  rfl

theorem hungUp_append (kind : Kind) (first second : List (ι × Event κ τ)) :
    hungUp kind (first ++ second) = hungUp kind first ++ hungUp kind second := by
  rw [hungUp, List.filterMap_append, List.filter_append]
  rfl

/-- The connections of a sort that a closing caller has yet to hang up. -/
def Stage.pending (kind : Kind) : Stage κ τ → List (Connection κ τ)
  | releasing rest => rest.filter (·.kind = kind)
  | _ => []

/-- What the slots are like while the caller that holds the lock is at a stage. -/
def Stage.Fits (slots : Slots κ τ) : Stage κ τ → Prop
  | dialing kind => slots.closed = false ∧ held slots kind = none
  | leaving kind result =>
    slots.closed = false ∧ ∀ connection, result = .ok connection → held slots kind = some connection
  | releasing _ => slots.closed = true
  | _ => True

/-- The events so far agree with the slots and with the stage of the caller that holds the
lock. -/
structure Books (events : List (ι × Event κ τ)) (slots : Slots κ τ) (stage : Stage κ τ) : Prop where
  shut : slots.closed = true ↔ ∃ who, (who, Event.shut) ∈ events
  once : ∀ kind, (opened kind events).length ≤ 1
  kept : slots.closed = false → ∀ kind,
    opened kind events = (held slots kind).toList ∧ hungUp kind events = []
  released : slots.closed = true → ∀ kind,
    opened kind events = hungUp kind events ++ stage.pending kind
  answered : ∀ who kind connection, (who, .left (.reached kind (.ok connection))) ∈ events →
    connection ∈ opened kind events
  fits : stage.Fits slots

/-! ## Slots -/

theorem held_fill (slots : Slots κ τ) (connection : Connection κ τ) (kind : Kind) :
    held (fill slots connection) kind =
      if connection.kind = kind then some connection else held slots kind := by
  cases connection <;> cases kind <;> rfl

theorem closed_fill (slots : Slots κ τ) (connection : Connection κ τ) :
    (fill slots connection).closed = slots.closed := by
  cases connection <;> rfl

theorem filter_connections (slots : Slots κ τ) (kind : Kind) :
    (connections slots).filter (·.kind = kind) = (held slots kind).toList := by
  rcases slots with ⟨cluster, registry, closed⟩
  cases kind <;> cases cluster <;> cases registry <;> rfl

/-! ## Preservation -/

/-- An event that neither makes nor ends a connection. -/
def Event.Silent : Event κ τ → Prop
  | connected _ => False
  | shut => False
  | hungUp _ => False
  | _ => True

namespace Books

variable {events : List (ι × Event κ τ)} {slots : Slots κ τ} {stage : Stage κ τ}

theorem start : Books ([] : List (ι × Event κ τ)) {} .away where
  shut := by simp
  once := by simp [opened]
  kept := by
    intro _ kind
    cases kind <;> exact ⟨rfl, rfl⟩
  released := by simp
  answered := by simp
  fits := trivial

/-- Whoever left with a connection left with one that was made. -/
theorem answered_append (hbooks : Books events slots stage) {who : ι} {event : Event κ τ}
    (hleft : ∀ kind connection, event = .left (.reached kind (.ok connection)) →
      connection ∈ opened kind events) (other : ι) (kind : Kind) (connection : Connection κ τ)
    (hanswer : (other, .left (.reached kind (.ok connection))) ∈ events ++ [(who, event)]) :
    connection ∈ opened kind (events ++ [(who, event)]) := by
  rw [opened_append]
  refine List.mem_append_left _ ?_
  rcases List.mem_append.mp hanswer with hbefore | hlast
  · exact hbooks.answered other kind connection hbefore
  · exact hleft kind connection (Prod.mk.inj (List.mem_singleton.mp hlast)).2.symm

/-- The books stay right when a connection is neither made nor ended. -/
theorem silent (hbooks : Books events slots stage) {who : ι} {event : Event κ τ}
    (hsilent : event.Silent) (hleft : ∀ kind connection,
      event = .left (.reached kind (.ok connection)) → connection ∈ opened kind events)
    {next : Stage κ τ} (hpending : ∀ kind, next.pending kind = stage.pending kind)
    (hfits : next.Fits slots) : Books (events ++ [(who, event)]) slots next := by
  have hopened (kind : Kind) : opened kind (events ++ [(who, event)]) = opened kind events := by
    rw [opened_append]
    cases event <;> simp_all [opened, Event.Silent, Event.made?]
  have hhungUp (kind : Kind) : hungUp kind (events ++ [(who, event)]) = hungUp kind events := by
    rw [hungUp_append]
    cases event <;> simp_all [hungUp, Event.Silent, Event.ended?]
  -- The lists stay as they are, so that only the record of being shut has to be looked at.
  refine ⟨?_, ?_, ?_, ?_, hbooks.answered_append hleft, hfits⟩
  · rw [hbooks.shut]
    apply exists_congr
    intro other
    simp only [List.mem_append, List.mem_singleton, Prod.mk.injEq]
    refine ⟨.inl, ?_⟩
    rintro (hmem | ⟨-, rfl⟩)
    · exact hmem
    · exact hsilent.elim
  · simpa only [hopened] using hbooks.once
  · simpa only [hopened, hhungUp] using hbooks.kept
  · simpa only [hopened, hhungUp, hpending] using hbooks.released

/-- A connection that is made goes into its empty slot. -/
theorem connect (hbooks : Books events slots stage) {connection : Connection κ τ}
    (hstage : stage = .dialing connection.kind) (who : ι) :
    Books (events ++ [(who, .connected connection)]) (fill slots connection)
      (.leaving connection.kind (.ok connection)) := by
  subst hstage
  obtain ⟨hopen, hempty⟩ := hbooks.fits
  -- Its slot was empty, so that it is the first of its sort.
  have hopened (kind : Kind) : opened kind (events ++ [(who, .connected connection)]) =
      (held (fill slots connection) kind).toList := by
    rw [opened_append, (hbooks.kept hopen kind).1, held_fill]
    by_cases hkind : connection.kind = kind
    · subst hkind
      simp [hempty, opened, Event.made?]
    · simp [hkind, opened, Event.made?]
  have hhungUp (kind : Kind) : hungUp kind (events ++ [(who, .connected connection)]) = [] := by
    rw [hungUp_append, (hbooks.kept hopen kind).2]
    rfl
  refine ⟨?_, ?_, ?_, ?_, hbooks.answered_append (by simp), ?_⟩
  · have hnone := hbooks.shut
    simp only [hopen, Bool.false_eq_true, false_iff] at hnone
    simp [closed_fill, hopen, hnone]
  · intro kind
    rw [hopened]
    cases held (fill slots connection) kind <;> simp
  · exact fun _ kind => ⟨hopened kind, hhungUp kind⟩
  · intro hclosed
    rw [closed_fill, hopen] at hclosed
    cases hclosed
  · refine ⟨(closed_fill slots connection).trans hopen, ?_⟩
    rintro _ ⟨⟩
    rw [held_fill, if_pos rfl]

/-- A caller that shuts the slots has all their connections still to hang up. -/
theorem close (hbooks : Books events slots stage) (hopen : slots.closed = false) (who : ι) :
    Books (events ++ [(who, .shut)]) slots.shut (.releasing (connections slots)) := by
  have hopened (kind : Kind) : opened kind (events ++ [(who, .shut)]) =
      (held slots kind).toList := by
    rw [opened_append, (hbooks.kept hopen kind).1]
    exact List.append_nil _
  have hhungUp (kind : Kind) : hungUp kind (events ++ [(who, .shut)]) = [] := by
    rw [hungUp_append, (hbooks.kept hopen kind).2]
    rfl
  refine ⟨?_, ?_, ?_, ?_, hbooks.answered_append (by simp), rfl⟩
  · exact iff_of_true rfl ⟨who, by simp⟩
  · intro kind
    rw [hopened]
    cases held slots kind <;> simp
  · intro hclosed
    cases hclosed
  · intro _ kind
    rw [hopened, hhungUp, List.nil_append, Stage.pending, filter_connections]

/-- A connection that is hung up is the next of those still to be hung up. -/
theorem hangUp {connection : Connection κ τ} {rest : List (Connection κ τ)}
    (hbooks : Books events slots (.releasing (connection :: rest))) (who : ι) :
    Books (events ++ [(who, .hungUp connection)]) slots (.releasing rest) := by
  have hclosed : slots.closed = true := hbooks.fits
  have hopened (kind : Kind) : opened kind (events ++ [(who, .hungUp connection)]) =
      opened kind events := by
    rw [opened_append]
    exact List.append_nil _
  refine ⟨?_, ?_, ?_, ?_, hbooks.answered_append (by simp), hclosed⟩
  · rw [hbooks.shut]
    apply exists_congr
    intro other
    simp
  · intro kind
    rw [hopened]
    exact hbooks.once kind
  · intro hopen
    rw [hclosed] at hopen
    cases hopen
  · -- It goes over from the pending connections to those hung up.
    intro _ kind
    rw [hopened, hbooks.released hclosed kind, hungUp_append]
    by_cases hkind : connection.kind = kind
    · simp [hungUp, Event.ended?, Stage.pending, hkind]
    · simp [hungUp, Event.ended?, Stage.pending, hkind]

/-- A caller that leaves with a connection leaves with the one that was made. -/
theorem leave (hbooks : Books events slots stage) {answer : Answer κ τ}
    (hdone : Done slots stage answer) (who : ι) :
    Books (events ++ [(who, .left answer)]) slots .away := by
  have hheld {kind : Kind} {connection : Connection κ τ} (hopen : slots.closed = false)
      (hheld : held slots kind = some connection) : connection ∈ opened kind events := by
    rw [(hbooks.kept hopen kind).1, hheld]
    exact List.mem_singleton_self connection
  refine hbooks.silent ?_ ?_ (fun kind => ?_) trivial
  · trivial
  · rintro kind connection ⟨⟩
    cases hdone with
    | found haccess =>
        obtain ⟨hopen, hslot⟩ := Slots.access_eq_connected.mp haccess
        exact hheld hopen hslot
    | dialed => exact hheld hbooks.fits.1 (hbooks.fits.2 connection rfl)
  · cases hdone <;> rfl

/-- The moves of the caller that holds the lock keep the books right. -/
theorem move (hbooks : Books events slots stage) {event : Event κ τ} {nextSlots : Slots κ τ}
    {nextStage : Stage κ τ} (hmove : Move slots stage event nextSlots nextStage) (who : ι) :
    Books (events ++ [(who, event)]) nextSlots nextStage := by
  cases hmove with
  | dial hempty =>
      refine hbooks.silent ?_ (by simp) (fun _ => rfl) (Slots.access_eq_empty.mp hempty)
      trivial
  | connect connection => exact hbooks.connect rfl who
  | fail cause =>
      refine hbooks.silent ?_ (by simp) (fun _ => rfl) ⟨hbooks.fits.1, ?_⟩
      · trivial
      · rintro _ ⟨⟩
  | shut hopen => exact hbooks.close hopen who
  | hangUp => exact hbooks.hangUp who
  | leave hdone => exact hbooks.leave hdone who

end Books

end ConsumerGroups.Sharing
