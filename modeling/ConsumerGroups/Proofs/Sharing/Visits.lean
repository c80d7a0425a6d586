import ConsumerGroups.Proofs.Links
import ConsumerGroups.Proofs.Results
import ConsumerGroups.Proofs.Sharing.Attempts

/-! # What a visit amounts to

Under the lock, a caller does what reaching or closing links does that have one user: it goes away
with the same answer, leaves the same slots behind, and has dialed and hung up in the same order on
the way. Others may come meanwhile, but cannot get at the slots, so that this is true of every visit
in every run.
-/

namespace ConsumerGroups.Sharing

variable {ι κ τ σ : Type}

/-- The moves of one caller, with nobody in between. -/
inductive Moves : Slots κ τ → Stage κ τ → List (Event κ τ) → Slots κ τ → Stage κ τ → Prop
  | nil (slots : Slots κ τ) (stage : Stage κ τ) : Moves slots stage [] slots stage
  | cons {slots nextSlots lastSlots : Slots κ τ} {stage nextStage lastStage : Stage κ τ}
      {event : Event κ τ} {rest : List (Event κ τ)}
      (hmove : Move slots stage event nextSlots nextStage)
      (hrest : Moves nextSlots nextStage rest lastSlots lastStage) :
      Moves slots stage (event :: rest) lastSlots lastStage

/-- A caller that is away does not move. -/
theorem Moves.of_away {slots lastSlots : Slots κ τ} {lastStage : Stage κ τ}
    {events : List (Event κ τ)} (hmoves : Moves slots .away events lastSlots lastStage) :
    events = [] ∧ lastSlots = slots := by
  cases hmoves with
  | nil => exact ⟨rfl, rfl⟩
  | cons hmove _ => cases hmove.holds

theorem Moves.append {slots nextSlots lastSlots : Slots κ τ} {stage nextStage lastStage : Stage κ τ}
    {first second : List (Event κ τ)} (hfirst : Moves slots stage first nextSlots nextStage)
    (hsecond : Moves nextSlots nextStage second lastSlots lastStage) :
    Moves slots stage (first ++ second) lastSlots lastStage := by
  induction hfirst with
  | nil slots stage => exact hsecond
  | cons hmove _ ih => exact .cons hmove (ih hsecond)

section

variable [DecidableEq ι] {slots lastSlots : Slots κ τ} {lastStage : Stage κ τ}
  {events : List (Event κ τ)}

/-- The moves of one caller are a run of all callers. -/
theorem Moves.run {stage : Stage κ τ} (hmoves : Moves slots stage events lastSlots lastStage)
    (stages : ι → Stage κ τ) (who : ι) :
    Run { slots, locked := stage.holds, stage := Function.update stages who stage }
      (events.map (who, ·))
      { slots := lastSlots, locked := lastStage.holds,
        stage := Function.update stages who lastStage } := by
  induction hmoves with
  | nil slots stage => exact .nil _
  | @cons slots nextSlots _ stage nextStage _ event rest hmove _ ih =>
      have hstep : Move slots (Function.update stages who stage who) event nextSlots nextStage := by
        rw [Function.update_self]
        exact hmove
      -- The next move starts where this one has left the caller.
      refine .cons (.work hstep) ?_
      dsimp only
      rw [Function.update_idem]
      exact ih

/-- A caller that finds the lock free and moves until it leaves. -/
theorem Moves.alone {visit : Visit} (hmoves : Moves slots (.inside visit) events lastSlots .away)
    (stages : ι → Stage κ τ) (who : ι) :
    Run { slots, stage := Function.update stages who (.waiting visit) }
      ((who, .entered visit) :: events.map (who, ·))
      { slots := lastSlots, stage := Function.update stages who .away } := by
  refine .cons (.enter (Function.update_self ..) rfl) ?_
  dsimp only
  rw [Function.update_idem]
  exact hmoves.run stages who

end

/-! ## Among others -/

section

variable [DecidableEq ι]

/-- What one caller does, of all that happens. -/
def own (who : ι) (events : List (ι × Event κ τ)) : List (Event κ τ) :=
  (events.filter (·.1 = who)).map (·.2)

omit [DecidableEq ι] in
/-- A move that ends away is one that leaves. -/
theorem Move.left {slots nextSlots : Slots κ τ} {stage : Stage κ τ} {event : Event κ τ}
    (hmove : Move slots stage event nextSlots .away) : ∃ answer, event = .left answer := by
  cases hmove with
  | leave => exact ⟨_, rfl⟩

omit [DecidableEq ι] in
theorem Move.of_left {slots nextSlots : Slots κ τ} {stage nextStage : Stage κ τ}
    {answer : Answer κ τ} (hmove : Move slots stage (.left answer) nextSlots nextStage) :
    nextStage = .away := by
  cases hmove with
  | leave => rfl

/-- Whoever else comes, a caller that holds the lock and does not leave makes moves, and nobody but
it gets at the slots. -/
theorem Sound.moves {past events : List (ι × Event κ τ)} {room last : Room ι κ τ} {who : ι}
    (hsound : Sound past room) (hholds : (room.stage who).holds = true)
    (hstays : ∀ answer, (who, .left answer) ∉ events) (hrun : Run room events last) :
    Moves room.slots (room.stage who) (own who events) last.slots (last.stage who) ∧
      (last.stage who).holds = true := by
  induction hrun generalizing past with
  | nil room => exact ⟨.nil _ _, hholds⟩
  | @cons room next last event rest hstep _ ih =>
      obtain ⟨mover, event⟩ := event
      have hrest (answer : Answer κ τ) : (who, .left answer) ∉ rest := fun hmem =>
        hstays answer (List.mem_cons_of_mem _ hmem)
      by_cases hmover : mover = who
      · subst hmover
        have hmove := hstep.move hholds
        have hnext : (next.stage mover).holds = true := by
          rcases hmove.next with haway | hnext
          · rw [haway] at hmove
            obtain ⟨answer, rfl⟩ := hmove.left
            exact absurd List.mem_cons_self (hstays answer)
          · exact hnext
        obtain ⟨hmoves, hlast⟩ := ih (hsound.step hstep) hnext hrest
        have hown : own mover ((mover, event) :: rest) = event :: own mover rest := by simp [own]
        rw [hown]
        exact ⟨.cons hmove hmoves, hlast⟩
      · obtain ⟨-, hslots, hstage⟩ := hsound.beside hholds hmover hstep
        have hown : own who ((mover, event) :: rest) = own who rest := by simp [own, hmover]
        rw [hown, ← hslots, ← hstage]
        exact ih (hsound.step hstep) (by rw [hstage]; exact hholds) hrest

/-- In every run, what a caller does from the moment it has the lock to the moment it leaves is a
sequence of moves that nobody interrupts. -/
theorem Run.moves {before during after : List (ι × Event κ τ)} {room : Room ι κ τ} {who : ι}
    {visit : Visit} {answer : Answer κ τ}
    (hrun : Run {} (before ++ (who, .entered visit) :: during ++ (who, .left answer) :: after) room)
    (hstays : ∀ other, (who, .left other) ∉ during) :
    ∃ earlier later, Run {} before earlier ∧
      Run earlier ((who, .entered visit) :: during ++ [(who, .left answer)]) later ∧
      Run later after room ∧
      Moves earlier.slots (.inside visit) (own who during ++ [.left answer]) later.slots .away := by
  obtain ⟨leaving, later, hfirst, hleft, hafter⟩ := hrun.around
  obtain ⟨earlier, hbefore, hvisit⟩ := hfirst.split
  have hwhole := hvisit.append (.cons hleft (.nil later))
  refine ⟨earlier, later, hbefore, hwhole, hafter, ?_⟩
  have hsound := Sound.start.run hbefore
  rw [List.nil_append] at hsound
  cases hvisit with
  | @cons _ inside _ _ _ hentered hduring =>
      have hsame : inside.slots = earlier.slots ∧ inside.stage who = .inside visit := by
        cases hentered with
        | enter => exact ⟨rfl, Function.update_self ..⟩
        | work hmove =>
            generalize earlier.stage who = stage at hmove
            cases hmove
      have hholds : (inside.stage who).holds = true := by
        rw [hsame.2]
        rfl
      obtain ⟨hmoves, hstill⟩ := (hsound.step hentered).moves hholds hstays hduring
      rw [hsame.1, hsame.2] at hmoves
      have hmove := hleft.move hstill
      rw [hmove.of_left] at hmove
      exact hmoves.append (.cons hmove (.nil _ _))

end

/-! ## Visits -/

section

variable {slots : Slots κ τ} {kind : Kind} {connection : Connection κ τ}

theorem Moves.refused (hclosed : slots.closed = true) :
    Moves slots (.inside (.reach kind))
      [.left (.reached kind (.error (.connection kind.context Links.closedCause)))] slots .away :=
  .cons (.leave (.refused (Slots.access_eq_closed.mpr hclosed))) (.nil _ _)

theorem Moves.found (hopen : slots.closed = false) (hheld : held slots kind = some connection) :
    Moves slots (.inside (.reach kind)) [.left (.reached kind (.ok connection))] slots .away :=
  .cons (.leave (.found (Slots.access_eq_connected.mpr ⟨hopen, hheld⟩))) (.nil _ _)

theorem Moves.failed (hopen : slots.closed = false) (hempty : held slots kind = none)
    (cause : Cause) :
    Moves slots (.inside (.reach kind))
      [.dialed kind, .failed kind cause,
        .left (.reached kind (.error (.connection kind.context cause)))] slots .away :=
  .cons (.dial (Slots.access_eq_empty.mpr ⟨hopen, hempty⟩)) <| .cons (.fail cause) <|
    .cons (.leave .dialed) (.nil _ _)

theorem Moves.connected (connection : Connection κ τ) (hopen : slots.closed = false)
    (hempty : held slots connection.kind = none) :
    Moves slots (.inside (.reach connection.kind))
      [.dialed connection.kind, .connected connection,
        .left (.reached connection.kind (.ok connection))] (fill slots connection) .away :=
  .cons (.dial (Slots.access_eq_empty.mpr ⟨hopen, hempty⟩)) <| .cons (.connect connection) <|
    .cons (.leave .dialed) (.nil _ _)

theorem Moves.releasing (slots : Slots κ τ) (rest : List (Connection κ τ)) :
    Moves slots (.releasing rest) (rest.map .hungUp ++ [.left .closed]) slots .away := by
  induction rest with
  | nil => exact .cons (.leave .released) (.nil _ _)
  | cons connection rest ih => exact .cons .hangUp ih

end

/-! ## Links that have one user -/

/-- An attempt to connect, whichever sort it is of. -/
def dial (links : Links σ) (state : σ) :
    Kind → Reply (Connection (Cluster σ) (Registry σ)) × σ
  | .cluster =>
    let (answer, reached) := (links.dialer.cluster links.settings.cluster).run state
    (answer.map .cluster, reached)
  | .registry =>
    let (answer, reached) := (links.dialer.registry links.settings.registry).run state
    (answer.map .registry, reached)

/-- What an event does to the state that connections are made from. -/
def Event.effect (links : Links σ) (state : σ) : Event (Cluster σ) (Registry σ) → σ
  | dialed kind => (dial links state kind).2
  | hungUp (.cluster cluster) => (cluster.close.run state).2
  | hungUp (.registry registry) => (registry.close.run state).2
  | _ => state

/-- An attempt comes to what the dialer of some links comes to. -/
def Event.TrueTo (links : Links σ) (state : σ) : Event (Cluster σ) (Registry σ) → Prop
  | failed kind cause => (dial links state kind).1 = .error cause
  | connected connection => (dial links state connection.kind).1 = .ok connection
  | _ => True

/-- What a visit comes to over links that have one user. -/
structure Outcome (σ : Type) where
  answer : Answer (Cluster σ) (Registry σ)
  slots : Slots (Cluster σ) (Registry σ)
  state : σ

/-- Reaches or closes links. -/
def visited (links : Links σ) (state : σ) : Visit → Outcome σ
  | .reach .cluster =>
    let ((result, reached), state) := Links.reachCluster.runFrom links state
    { answer := .reached .cluster (result.map .cluster), slots := reached.slots, state }
  | .reach .registry =>
    let ((result, reached), state) := Links.reachRegistry.runFrom links state
    { answer := .reached .registry (result.map .registry), slots := reached.slots, state }
  | .close =>
    let ((_, reached), state) := (Links.close.run links).run state
    { answer := .closed, slots := reached.slots, state }

/-- The dialer makes connections of the sort that is asked for. -/
theorem kind_of_dial {links : Links σ} {state : σ} {kind : Kind}
    {connection : Connection (Cluster σ) (Registry σ)}
    (hdialed : (dial links state kind).1 = .ok connection) : connection.kind = kind := by
  cases kind <;> obtain ⟨handle, -, rfl⟩ := Results.map_eq_ok.mp hdialed <;> rfl

/-- Reaching a connection depends on what its slot holds, whichever sort it is of. -/
theorem visited_reach (links : Links σ) (state : σ) (kind : Kind) :
    visited links state (.reach kind) =
      match links.slots.access (held links.slots kind), dial links state kind with
      | .closed, _ =>
        ⟨.reached kind (.error (.connection kind.context Links.closedCause)), links.slots, state⟩
      | .connected connection, _ => ⟨.reached kind (.ok connection), links.slots, state⟩
      | .empty, (.error cause, reached) =>
        ⟨.reached kind (.error (.connection kind.context cause)), links.slots, reached⟩
      | .empty, (.ok connection, reached) =>
        ⟨.reached kind (.ok connection), fill links.slots connection, reached⟩ := by
  obtain ⟨settings, dialer, cluster, registry, closed⟩ := links
  cases kind with
  | cluster =>
      simp only [visited, Links.reachCluster_run, dial]
      rcases (dialer.cluster settings.cluster).run state with ⟨answer, reached⟩
      cases closed <;> cases cluster <;> cases answer <;> rfl
  | registry =>
      simp only [visited, Links.reachRegistry_run, dial]
      rcases (dialer.registry settings.registry).run state with ⟨answer, reached⟩
      cases closed <;> cases registry <;> cases answer <;> rfl

/-- Events in which one caller makes a visit that comes to something, as the dialer has it. -/
structure Follows (links : Links σ) (state : σ) (visit : Visit) (outcome : Outcome σ)
    (events : List (Event (Cluster σ) (Registry σ))) : Prop where
  moves : Moves links.slots (.inside visit) (events ++ [.left outcome.answer]) outcome.slots .away
  trueTo : ∀ event ∈ events, event.TrueTo links state
  effect : events.foldl (Event.effect links) state = outcome.state

/-- Reaching a connection is a visit to it. -/
theorem follows_reach (links : Links σ) (state : σ) (kind : Kind) :
    ∃ events, Follows links state (.reach kind) (visited links state (.reach kind)) events := by
  rw [visited_reach]
  rcases hdialed : dial links state kind with ⟨answer, reached⟩
  have hgiven : (dial links state kind).1 = answer := congrArg Prod.fst hdialed
  have hreached : Event.effect links state (.dialed kind) = reached := congrArg Prod.snd hdialed
  cases haccess : links.slots.access (held links.slots kind) with
  | closed => exact ⟨[], .refused (Slots.access_eq_closed.mp haccess), nofun, rfl⟩
  | connected connection =>
      obtain ⟨hopen, hheld⟩ := Slots.access_eq_connected.mp haccess
      exact ⟨[], .found hopen hheld, nofun, rfl⟩
  | empty =>
      obtain ⟨hopen, hempty⟩ := Slots.access_eq_empty.mp haccess
      cases answer with
      | error cause =>
          exact ⟨[.dialed kind, .failed kind cause], .failed hopen hempty cause,
            by simpa [Event.TrueTo] using hgiven, hreached⟩
      | ok connection =>
          obtain rfl := kind_of_dial hgiven
          exact ⟨[.dialed connection.kind, .connected connection],
            .connected connection hopen hempty, by simpa [Event.TrueTo] using hgiven, hreached⟩

/-- Closing the links is a visit that hangs up whatever the slots hold. -/
theorem follows_close (links : Links σ) (state : σ) :
    ∃ events, Follows links state .close (visited links state .close) events := by
  cases hclosed : links.slots.closed with
  | true =>
      simp only [visited, Links.close_run, hclosed, if_true]
      exact ⟨[], .cons (.leave (.shutBefore hclosed)) (.nil _ _), nofun, rfl⟩
  | false =>
      simp only [visited, Links.close_run, hclosed, Bool.false_eq_true, if_false]
      refine ⟨.shut :: (connections links.slots).map .hungUp, ?_, ?_, ?_⟩
      · exact .cons (.shut hclosed) (.releasing _ _)
      · rw [List.forall_mem_cons, List.forall_mem_map]
        exact ⟨trivial, fun _ _ => trivial⟩
      · rcases links.slots with ⟨cluster, registry, closed⟩
        cases cluster <;> cases registry <;> rfl

/-- Whatever links do for one user is a visit. -/
theorem exists_follows (links : Links σ) (state : σ) (visit : Visit) :
    ∃ events, Follows links state visit (visited links state visit) events := by
  cases visit with
  | reach kind => exact follows_reach links state kind
  | close => exact follows_close links state

/-! ## Moves have no choice -/

theorem Done.unique {slots : Slots κ τ} {stage : Stage κ τ} {answer other : Answer κ τ}
    (hdone : Done slots stage answer) (hother : Done slots stage other) : answer = other := by
  cases hdone with
  | refused haccess =>
      cases hother with
      | refused => rfl
      | found hfound => cases haccess.symm.trans hfound
  | found haccess =>
      cases hother with
      | refused hrefused => cases haccess.symm.trans hrefused
      | found hfound =>
          cases haccess.symm.trans hfound
          rfl
  | _ =>
      cases hother
      rfl

/-- Whoever has something left to do under the lock does not leave. -/
theorem Done.stays {slots nextSlots : Slots κ τ} {stage nextStage : Stage κ τ} {answer : Answer κ τ}
    {event : Event κ τ} (hdone : Done slots stage answer)
    (hmove : Move slots stage event nextSlots nextStage) :
    event = .left answer ∧ nextSlots = slots ∧ nextStage = .away := by
  cases hmove with
  | leave hother => exact ⟨congrArg _ (hother.unique hdone), rfl, rfl⟩
  | dial hempty =>
      cases hdone with
      | refused haccess => cases hempty.symm.trans haccess
      | found haccess => cases hempty.symm.trans haccess
  | shut hopen =>
      cases hdone with
      | shutBefore hclosed => cases hopen.symm.trans hclosed
  | _ => cases hdone

section

variable {links : Links σ} {state : σ} {slots first second : Slots (Cluster σ) (Registry σ)}

/-- The dialer has one answer. -/
theorem Event.TrueTo.unique {connection other : Connection (Cluster σ) (Registry σ)}
    (htrue : (connected connection).TrueTo links state)
    (hother : (connected other).TrueTo links state) (hkind : connection.kind = other.kind) :
    connection = other := by
  have hgiven : (dial links state connection.kind).1 = .ok connection := htrue
  rw [hkind] at hgiven
  exact Except.ok.inj (hgiven.symm.trans hother)

theorem Event.TrueTo.not_failed {connection : Connection (Cluster σ) (Registry σ)} {cause : Cause}
    (htrue : (connected connection).TrueTo links state)
    (hfailed : (failed connection.kind cause).TrueTo links state) : False := by
  cases Eq.trans (Eq.symm htrue) hfailed

/-- What an attempt comes to is up to the dialer. Otherwise the caller that holds the lock has one
move at a time. -/
theorem Move.unique {stage here there : Stage (Cluster σ) (Registry σ)}
    {event other : Event (Cluster σ) (Registry σ)} (hmove : Move slots stage event first here)
    (hother : Move slots stage other second there) (htrue : event.TrueTo links state)
    (htrueOther : other.TrueTo links state) : event = other ∧ first = second ∧ here = there := by
  cases hmove with
  | leave hdone =>
      obtain ⟨rfl, rfl, rfl⟩ := hdone.stays hother
      exact ⟨rfl, rfl, rfl⟩
  | connect connection =>
      generalize hkind : connection.kind = kind at hother
      cases hother with
      | connect other =>
          obtain rfl := htrue.unique htrueOther hkind
          exact ⟨rfl, rfl, rfl⟩
      | fail cause =>
          subst hkind
          exact (htrue.not_failed htrueOther).elim
      | leave hdone => cases hdone
  | @fail kind cause =>
      generalize hstage : (.dialing kind : Stage (Cluster σ) (Registry σ)) = stage at hother
      cases hother with
      | connect connection =>
          cases hstage
          exact (htrueOther.not_failed htrue).elim
      | fail other =>
          cases hstage
          obtain rfl : cause = other := Except.error.inj (Eq.trans (Eq.symm htrue) htrueOther)
          exact ⟨rfl, rfl, rfl⟩
      | leave hdone =>
          subst hstage
          cases hdone
      | _ => cases hstage
  | dial hempty =>
      cases hother with
      | dial => exact ⟨rfl, rfl, rfl⟩
      | leave hdone => cases (hdone.stays (.dial hempty)).1
  | shut hopen =>
      cases hother with
      | shut => exact ⟨rfl, rfl, rfl⟩
      | leave hdone => cases (hdone.stays (.shut hopen)).1
  | hangUp =>
      cases hother with
      | hangUp => exact ⟨rfl, rfl, rfl⟩
      | leave hdone => cases hdone

/-- True to one dialer, a caller has one way to make its visit. -/
theorem Moves.unique {stage : Stage (Cluster σ) (Registry σ)}
    {events others : List (Event (Cluster σ) (Registry σ))}
    (hmoves : Moves slots stage events first .away)
    (hothers : Moves slots stage others second .away)
    (htrue : ∀ event ∈ events, event.TrueTo links state)
    (htrueOthers : ∀ event ∈ others, event.TrueTo links state) :
    events = others ∧ first = second := by
  generalize haway : (.away : Stage (Cluster σ) (Registry σ)) = last at hmoves
  induction hmoves generalizing others with
  | nil slots stage =>
      subst haway
      obtain ⟨rfl, rfl⟩ := hothers.of_away
      exact ⟨rfl, rfl⟩
  | @cons slots nextSlots _ stage nextStage _ event rest hmove _ ih =>
      cases hothers with
      | nil => cases hmove.holds
      | @cons _ otherSlots _ _ otherStage _ other more hother hmore =>
          obtain ⟨hevent, hrest⟩ := List.forall_mem_cons.mp htrue
          obtain ⟨hfirst, hlater⟩ := List.forall_mem_cons.mp htrueOthers
          obtain ⟨rfl, rfl, rfl⟩ := hmove.unique hother hevent hfirst
          obtain ⟨rfl, rfl⟩ := ih hmore hrest hlater haway
          exact ⟨rfl, rfl⟩

theorem Moves.of_leaving {slots lastSlots : Slots κ τ} {kind : Kind}
    {result : Except Failure (Connection κ τ)} {lastStage : Stage κ τ} {events : List (Event κ τ)}
    (hmoves : Moves slots (.leaving kind result) events lastSlots lastStage) :
    ∀ event ∈ events, ∃ answer, event = .left answer := by
  cases hmoves with
  | nil => exact nofun
  | cons hmove hrest =>
      cases hmove with
      | leave =>
          obtain ⟨rfl, -⟩ := hrest.of_away
          exact List.forall_mem_singleton.mpr ⟨_, rfl⟩

/-- Some dialer has what the moves of a caller come to. -/
theorem Moves.exists_dialer {lastSlots : Slots (Cluster σ) (Registry σ)}
    {stage lastStage : Stage (Cluster σ) (Registry σ)}
    {events : List (Event (Cluster σ) (Registry σ))}
    (hmoves : Moves slots stage events lastSlots lastStage) (settings : Settings) (state : σ) :
    ∃ dialer, ∀ event ∈ events, ∀ held, event.TrueTo { settings, dialer, slots := held } state := by
  let giving (answer : Reply (Cluster σ)) (other : Reply (Registry σ)) : Dialer σ :=
    { cluster := fun _ => pure answer, registry := fun _ => pure other }
  induction hmoves with
  | nil => exact ⟨giving (.error []) (.error []), nofun⟩
  | @cons _ _ _ _ _ _ event rest hmove hrest ih =>
      -- After its only attempt a caller leaves, and the dialer is not asked for anything more.
      have hquiet (dialer : Dialer σ) (hleft : ∀ event ∈ rest, ∃ answer, event = .left answer) :
          ∀ event ∈ rest, ∀ held, event.TrueTo { settings, dialer, slots := held } state := by
        intro event hevent held
        obtain ⟨answer, rfl⟩ := hleft event hevent
        trivial
      cases hmove with
      | connect connection =>
          cases connection with
          | cluster cluster =>
              exact ⟨giving (.ok cluster) (.error []),
                List.forall_mem_cons.mpr ⟨fun _ => rfl, hquiet _ hrest.of_leaving⟩⟩
          | registry registry =>
              exact ⟨giving (.error []) (.ok registry),
                List.forall_mem_cons.mpr ⟨fun _ => rfl, hquiet _ hrest.of_leaving⟩⟩
      | @fail kind cause =>
          refine ⟨giving (.error cause) (.error cause),
            List.forall_mem_cons.mpr ⟨fun _ => ?_, hquiet _ hrest.of_leaving⟩⟩
          cases kind <;> rfl
      | _ =>
          obtain ⟨dialer, hdialer⟩ := ih
          exact ⟨dialer, List.forall_mem_cons.mpr ⟨fun _ => trivial, hdialer⟩⟩

end

/-! ## Rooms and links -/

/-- A room serves each of its callers as links serve one user. -/
structure Serves (ι σ : Type) [DecidableEq ι] : Prop where
  /-- What links do is a visit of a caller that finds the lock free. -/
  follows : ∀ (links : Links σ) (state : σ) (visit : Visit)
    (stages : ι → Stage (Cluster σ) (Registry σ)) (who : ι), ∃ during,
      Run { slots := links.slots, stage := Function.update stages who (.waiting visit) }
        ((who, .entered visit) ::
          (during ++ [.left (visited links state visit).answer]).map (who, ·))
        { slots := (visited links state visit).slots, stage := Function.update stages who .away } ∧
      (∀ event ∈ during, event.TrueTo links state) ∧
      during.foldl (Event.effect links) state = (visited links state visit).state
  /-- Every visit of a run, whoever else comes meanwhile, amounts to what is done by links with the
  slots that the visit begins with, if the dialer has what the visit's attempt came to. Some dialer
  has. -/
  amounts : ∀ {before during after : List (ι × Event (Cluster σ) (Registry σ))}
    {room : Room ι (Cluster σ) (Registry σ)} {who : ι} {visit : Visit}
    {answer : Answer (Cluster σ) (Registry σ)},
    Run {} (before ++ (who, .entered visit) :: during ++ (who, .left answer) :: after) room →
    (∀ other, (who, .left other) ∉ during) →
      ∃ earlier later, Run {} before earlier ∧
        Run earlier ((who, .entered visit) :: during ++ [(who, .left answer)]) later ∧
        Run later after room ∧
        (∀ (links : Links σ) (state : σ), links.slots = earlier.slots →
          (∀ event ∈ own who during, event.TrueTo links state) →
            visited links state visit =
              { answer, slots := later.slots,
                state := (own who during).foldl (Event.effect links) state }) ∧
        ∀ (settings : Settings) (state : σ), ∃ dialer, ∀ event ∈ own who during,
          event.TrueTo { settings, dialer, slots := earlier.slots } state

theorem serves (ι σ : Type) [DecidableEq ι] : Serves ι σ where
  follows links state visit stages who := by
    obtain ⟨during, hmoves, htrue, heffect⟩ := exists_follows links state visit
    exact ⟨during, hmoves.alone stages who, htrue, heffect⟩
  amounts := by
    intro before during after room who visit answer hrun hstays
    obtain ⟨earlier, later, hbefore, hvisit, hafter, hmoves⟩ := hrun.moves hstays
    refine ⟨earlier, later, hbefore, hvisit, hafter, fun links state hslots htrue => ?_,
      fun settings state => ?_⟩
    · obtain ⟨events, hfollows, hsame, heffect⟩ := exists_follows links state visit
      rw [← hslots] at hmoves
      have hleft (event : Event (Cluster σ) (Registry σ)) (answer : Answer (Cluster σ) (Registry σ))
          (hevent : event ∈ [Event.left answer]) : event.TrueTo links state := by
        rw [List.mem_singleton.mp hevent]
        trivial
      obtain ⟨hevents, hlast⟩ := hfollows.unique hmoves
        (List.forall_mem_append.mpr ⟨hsame, fun event => hleft event _⟩)
        (List.forall_mem_append.mpr ⟨htrue, fun event => hleft event _⟩)
      obtain ⟨rfl, hanswer⟩ := List.append_inj' hevents rfl
      cases hanswer
      rw [heffect, ← hlast]
    · obtain ⟨dialer, hdialer⟩ := hmoves.exists_dialer settings state
      exact ⟨dialer, fun event hevent => hdialer event (List.mem_append_left _ hevent) _⟩

end ConsumerGroups.Sharing
