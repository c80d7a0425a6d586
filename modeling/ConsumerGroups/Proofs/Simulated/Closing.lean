import ConsumerGroups.Proofs.Failures.LinkedErrands
import ConsumerGroups.Proofs.Simulated.Connections

/-! # Closing one user of many

A user that is closed is refused whatever it asks for, and asks nobody. Nobody else notices that it
was closed: all others come to the answers that they would have come to without it.
-/

namespace ConsumerGroups.Simulated

open Results Sharing

/-! ## Refusals -/

/-- A call over closed links makes no call on any collaborator. -/
theorem log_of_closed {links : Links World} (hclosed : links.slots.closed = true)
    (call : ConsoleCall) (world : World) :
    ((call.run.run links.recorded).run ⟨world, []⟩).2.log = [] := by
  have hrecorded : links.recorded.slots.closed = true := hclosed
  have hrefused {α : Type} {errand : LinkedErrand (Recorded World) α} {result : Except Failure α}
      (hrun : errand.runFrom links.recorded ⟨world, []⟩ =
        ((result, links.recorded), ⟨world, []⟩)) :
      (errand.runFrom links.recorded ⟨world, []⟩).2.log = [] := by
    rw [hrun]
  cases call with
  | progress => exact hrefused (reachCluster_bind_of_closed hrecorded _ _)
  | commit => exact hrefused (reachCluster_bind_of_closed hrecorded _ _)
  | owners => exact hrefused (reachRegistry_bind_of_closed hrecorded _ _)
  | ownersByGroup => exact hrefused (reachRegistry_bind_of_closed hrecorded _ _)
  | close =>
      change ((Links.close.run links.recorded).run ⟨world, []⟩).2.log = []
      rw [Links.close_run, if_pos hrecorded]

/-- Closed links refuse whatever starts with a connection, and stay as they are. -/
theorem Use.run_of_closed {session : Session} (hwired : session.Wired)
    (hclosed : session.console.slots.closed = true) {use : Use} {kind : Kind}
    (hseeks : use.seeks = some kind) :
    (Session.onConsole use.run).run session =
      (use.refused (.connection kind.context Links.closedCause), session) := by
  rw [run_eq hwired hseeks]
  rcases session with ⟨world, ⟨settings, dialer, ⟨cluster, registry, closed⟩⟩, links⟩
  cases hclosed
  cases kind <;> rfl

/-! ## What nobody notices -/

namespace World

theorem close_none (world : World) : world.close (fun _ => false) = world := by
  simp [close]

theorem close_comm (world : World) (first second : Kind → Bool) :
    (world.close first).close second = (world.close second).close first := by
  simp [close, Bool.or_right_comm]

end World

namespace Session

/-- A session in whose world what connections of some sorts lead to is closed. -/
def shut (session : Session) (kinds : Kind → Bool) : Session :=
  { session with world := session.world.close kinds }

variable (session : Session) (kinds : Kind → Bool) (kind : Kind)

theorem reached_shut : (session.shut kinds).reached kind = session.reached kind := by
  cases kind <;> rfl

theorem connect_shut : (session.shut kinds).connect kind = (session.connect kind).shut kinds := by
  rcases session with ⟨⟨_, _, _, _, refusing⟩, ⟨_, _, ⟨cluster, registry, closed⟩⟩, _⟩
  cases kind <;> cases closed <;> cases cluster <;> cases registry <;> cases refusing <;> rfl

end Session

/-- No use notices what others have closed. -/
theorem Use.run_shut {session : Session} (hwired : session.Wired) (use : Use)
    (kinds : Kind → Bool) :
    (Session.onConsole use.run).run (session.shut kinds) =
      (((Session.onConsole use.run).run session).1,
        ((Session.onConsole use.run).run session).2.shut kinds) := by
  have hshut : (session.shut kinds).Wired := ⟨hwired.console, hwired.links⟩
  cases hseeks : use.seeks with
  | some kind =>
      rw [run_eq hwired hseeks, run_eq hshut hseeks, session.reached_shut, session.connect_shut]
      cases session.reached kind with
      | error failure => rfl
      | ok value =>
          have htask := (use.madeOf_task session.console.settings).commutes
            (fun _ _ hcall => hcall.commutes_close kinds) (session.connect kind).world
          exact congrArg (fun run => (run.1, { session.connect kind with world := run.2 })) htask
  | none =>
      cases hcloses : use.closes with
      | true =>
          have hanswer (other : Session) : ((Session.onConsole use.run).run other).1 =
              ((Session.onConsole use.run).run session).1 := by
            rcases eq_of_closes hcloses with rfl | rfl <;> rfl
          refine Prod.ext (hanswer _) ?_
          rw [close_effect hwired hcloses, close_effect hshut hcloses]
          change (if session.console.slots.closed = true then _ else _) = _
          split
          · rfl
          · simp only [Session.shut, World.close_comm]
      | false =>
          obtain rfl := eq_settings hseeks hcloses
          rfl

theorem closed_apply_registry (edit : RegistryEdit) (registry : RegistryState) (closed : Bool) :
    edit.apply { registry with closed := registry.closed || closed } =
      { edit.apply registry with closed := (edit.apply registry).closed || closed } := by
  cases edit <;> simp [RegistryEdit.apply, RegistryState.create, RegistryState.remove,
    RegistryState.recordGroup, RegistryState.recordOwner, RegistryState.blockPath]

/-- No deed notices what is closed, but for the question itself. -/
theorem Deed.commutes_close {deed : Deed} (hdeed : deed ≠ .closed) (kinds : Kind → Bool) :
    Commutes (fun world => world.close kinds) deed.run := by
  intro world
  have hbrokers : (world.close kinds).cluster.brokers = world.cluster.brokers := rfl
  cases deed with
  | call direct =>
      have htask := (madeOf_direct direct).commutes
        (fun _ _ hcall => hcall.commutes_close kinds) world
      exact congrArg (fun run => (Answer.call run.1, run.2)) htask
  | editCluster edit => cases edit <;> rfl
  | editBroker id edit =>
      have hrun (world : World) : (Deed.editBroker id edit).run.run world =
          let run := (Session.step (.editBroker id edit)).run
            ⟨world, Session.freshLinks {}, Session.freshLinks {}⟩
          (run.1, run.2.world) := rfl
      simp only [hrun, editBroker_run, hbrokers]
      split <;> rfl
  | askBroker id request =>
      have hrun (world : World) : (Deed.askBroker id request).run.run world =
          let run := (World.onBroker? id (request.run id)).run world.cluster
          (run.1.getD .noBroker, { world with cluster := run.2 }) := rfl
      simp only [hrun, World.onBroker?_run, hbrokers]
      cases world.cluster.brokers[id]? <;> rfl
  | editRegistry edit =>
      have hrun (world : World) : (Deed.editRegistry edit).run.run world =
          (.nothing, { world with registry := edit.apply world.registry }) := rfl
      rw [hrun, hrun]
      exact congrArg (fun registry => (Answer.nothing, { world.close kinds with registry }))
        (closed_apply_registry edit world.registry (kinds .registry))
  | closed => exact absurd rfl hdeed
  | _ => rfl

/-! ## Companies -/

namespace Company

/-- An event that is about a user: something the user does, or the question what is closed. -/
def Event.Regards (user : Nat) : Event → Prop
  | .join _ => False
  | .use other _ => other = user
  | .apart deed => deed = .closed

/-- Companies that are the same but for one user and for what is closed. -/
structure AgreeBut (user : Nat) (kinds : Kind → Bool) (first second : Company) : Prop where
  world : second.world = first.world.close kinds
  length : second.users.length = first.users.length
  users : ∀ other, other ≠ user → second.users[other]? = first.users[other]?

theorem AgreeBut.set {user other : Nat} {kinds : Kind → Bool} {first second : Company}
    (hagree : AgreeBut user kinds first second) (links : Links World) (world : World) :
    AgreeBut user kinds { world, users := first.users.set other links }
      { world := world.close kinds, users := second.users.set other links } := by
  refine ⟨rfl, by simp [hagree.length], fun who hwho => ?_⟩
  change (second.users.set other links)[who]? = (first.users.set other links)[who]?
  rw [List.getElem?_set, List.getElem?_set, hagree.length, hagree.users who hwho]

/-- What is not about the user comes to the same in both companies. -/
theorem AgreeBut.step {user : Nat} {kinds : Kind → Bool} {before : List Event} {second : Company}
    (hagree : AgreeBut user kinds (after before) second) {event : Event}
    (hevent : ¬event.Regards user) :
    ((Company.step event).run second).1 = ((Company.step event).run (after before)).1 ∧
      AgreeBut user kinds ((Company.step event).run (after before)).2
        ((Company.step event).run second).2 := by
  cases event with
  | join settings =>
      refine ⟨rfl, hagree.world, ?_, fun other hother => ?_⟩
      · change (second.users ++ [_]).length = ((after before).users ++ [_]).length
        simp [hagree.length]
      · change (second.users ++ [_])[other]? = ((after before).users ++ [_])[other]?
        rw [List.getElem?_append, List.getElem?_append, hagree.length, hagree.users other hother]
  | use other use =>
      have hsame := hagree.users other hevent
      cases huser : (after before).users[other]? with
      | none =>
          rw [use_run_of_absent huser, use_run_of_absent (hsame.trans huser)]
          exact ⟨rfl, hagree⟩
      | some links =>
          -- The user sits in the same session in both companies, but for what is closed.
          have hwired := (told before).wired other links huser
          have hshut : second.seat links = ((after before).seat links).shut kinds := by
            rw [seat, hagree.world]
            rfl
          rw [use_run huser, use_run (hsame.trans huser), hshut,
            Use.run_shut (seat_wired hwired) use kinds]
          exact ⟨rfl, hagree.set _ _⟩
  | apart deed =>
      have hdeed := Deed.commutes_close hevent kinds (after before).world
      dsimp only at hdeed
      rw [← hagree.world] at hdeed
      obtain ⟨hanswer, hworld⟩ := Prod.ext_iff.mp hdeed
      exact ⟨hanswer, hworld, hagree.length, hagree.users⟩

theorem AgreeBut.run {user : Nat} {kinds : Kind → Bool} {before : List Event} {second : Company}
    (hagree : AgreeBut user kinds (after before) second) {later : List Event}
    (hlater : ∀ event ∈ later, ¬event.Regards user) :
    ((Company.run later).run second).1 = ((Company.run later).run (after before)).1 := by
  induction later generalizing before second with
  | nil => rfl
  | cons event rest ih =>
      obtain ⟨hevent, hrest⟩ := List.forall_mem_cons.mp hlater
      obtain ⟨hanswer, hnext⟩ := hagree.step hevent
      rw [← after_append_singleton] at hnext
      rw [run_cons, run_cons, hanswer, ih hnext hrest, after_append_singleton]

/-- A company in which a user is closed is the same for all others. -/
theorem exists_agreeBut (events : List Event) (user : Nat) {use : Use}
    (hcloses : use.closes = true) :
    ∃ kinds, AgreeBut user kinds (after events)
      ((Company.step (.use user use)).run (after events)).2 := by
  have hidle : AgreeBut user (fun _ => false) (after events) (after events) :=
    ⟨(World.close_none _).symm, rfl, fun _ _ => rfl⟩
  cases huser : (after events).users[user]? with
  | none =>
      rw [use_run_of_absent huser]
      exact ⟨_, hidle⟩
  | some links =>
      have hwired := (told events).wired user links huser
      rw [use_run huser]
      dsimp only
      rw [Use.close_effect (seat_wired hwired) hcloses]
      have husers (links' : Links World) (other : Nat) (hother : other ≠ user) :
          ((after events).users.set user links')[other]? = (after events).users[other]? :=
        List.getElem?_set_ne hother.symm
      -- Links that are closed already let go of nothing.
      split
      · exact ⟨_, (World.close_none _).symm, List.length_set, husers _⟩
      · exact ⟨fun kind => (held links.slots kind).isSome, rfl, List.length_set, husers _⟩

/-- Users that are shut are refused, ask nobody and change nothing. -/
theorem refused_of_wasShut {events : List Event} {user : Nat} (hshut : WasShut user events)
    {call : ConsoleCall} {kind : Kind} (hseeks : (Use.call call).seeks = some kind) :
    (Company.step (.use user (.call call))).run (after events) =
        ((Use.call call).refused (.connection kind.context Links.closedCause), after events) ∧
      ∃ links, (after events).users[user]? = some links ∧
        ((call.run.run links.recorded).run ⟨(after events).world, []⟩).2.log = [] := by
  have htold := told events
  have hlength := htold.shut_present user hshut
  have huser := List.getElem?_eq_getElem hlength
  have hclosed := (htold.shut user _ huser).mpr hshut
  refine ⟨?_, _, huser, log_of_closed hclosed call _⟩
  rw [use_run huser, Use.run_of_closed (seat_wired (htold.wired user _ huser)) hclosed hseeks]
  have hset : (after events).users.set user (after events).users[user] = (after events).users :=
    List.set_getElem_self hlength
  exact congrArg (fun users => (_, { (after events) with users })) hset

/-- The counts of connections and the marks of what is closed tell the history of a company, and a
user that is closed is refused, which nobody else notices. -/
theorem connections_accounted (events : List Event) :
    let company := after events
    (∀ kind, company.world.connects kind = {user | Acquired kind user events}.ncard) ∧
      (∀ kind, company.world.isClosed kind = true ↔
        .apart (closing kind) ∈ events ∨ ∃ user, LetGo kind user events) ∧
      (∀ user, WasShut user events → ∀ call kind, (Use.call call).seeks = some kind →
        (step (.use user (.call call))).run company =
            ((Use.call call).refused (.connection kind.context Links.closedCause), company) ∧
          ∃ links, company.users[user]? = some links ∧
            ((call.run.run links.recorded).run ⟨company.world, []⟩).2.log = []) ∧
      ∀ (user : Nat) (use : Use), use.closes = true → ∀ later : List Event,
        (∀ event ∈ later, ¬event.Regards user) →
          ((run later).run ((step (.use user use)).run company).2).1 =
            ((run later).run company).1 := by
  intro company
  refine ⟨(told events).connects, (told events).isClosed,
    fun user hshut call kind hseeks => refused_of_wasShut hshut hseeks,
    fun user use hcloses later hlater => ?_⟩
  obtain ⟨kinds, hagree⟩ := exists_agreeBut events user hcloses
  exact hagree.run hlater

/-- Of two users one is refused before it connects, and the other connects and is closed. -/
theorem connections_accounted_of_two_users :
    let before : List Event :=
      [.join {}, .join {}, .apart (.refuse true), .use 1 (.reach .cluster),
        .apart (.refuse false), .use 0 (.call (.progress "g" "t")), .use 0 (.reach .cluster),
        .use 1 (.reach .registry)]
    let events := before ++ [.use 0 (.call .close)]
    let ask : ConsoleCall := .owners "g" "t"
    {user | Acquired .cluster user events}.ncard = 1 ∧
      {user | Acquired .registry user events}.ncard = 1 ∧
      (∃ user, LetGo .cluster user events) ∧ (¬∃ user, LetGo .registry user events) ∧
      (step (.use 0 (.call ask))).run (after events) =
        (.call (.owners (.error (.connection .registryConnection Links.closedCause))),
          after events) ∧
      ((run [.use 1 (.call ask)]).run (after events)).1 =
        ((run [.use 1 (.call ask)]).run (after before)).1 := by
  intro before events ask
  obtain ⟨hconnects, hclosed, hrefused, -⟩ := connections_accounted events
  obtain ⟨-, -, -, hothers⟩ := connections_accounted before
  have hcluster : (after events).world.isClosed .cluster = true := rfl
  have hregistry : (after events).world.isClosed .registry = false := rfl
  have hshut : WasShut 0 events :=
    ⟨before, .use 0 (.call .close), [], rfl, .call .close, rfl, rfl, Nat.zero_lt_two⟩
  refine ⟨(hconnects .cluster).symm.trans rfl, (hconnects .registry).symm.trans rfl, ?_,
    fun hletGo => ?_, (hrefused 0 hshut ask .registry rfl).1, ?_⟩
  · refine ((hclosed .cluster).mp hcluster).resolve_left ?_
    simp [events, before, closing]
  · have hclosed' := (hclosed .registry).mpr (.inr hletGo)
    rw [hregistry] at hclosed'
    cases hclosed'
  · have hafter : after events = ((step (.use 0 (.call .close))).run (after before)).2 :=
      after_append_singleton before _
    rw [hafter]
    exact hothers 0 (.call .close) rfl [.use 1 (.call ask)] (by simp [Event.Regards])

end Company

end ConsumerGroups.Simulated
