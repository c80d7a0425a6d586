import Mathlib.Data.Set.Card
import ConsumerGroups.Proofs.Simulated.Company

/-! # What connections of a company are counted and closed

The counts of connections and the marks of what is closed follow from the history of a company: a
user counts once for a sort of connection as soon as it reaches one, and what it has reached is
closed when it is closed.
-/

namespace ConsumerGroups.Simulated

open Results Sharing

/-! ## One use -/

namespace Session

/-- What a console meets that makes use of a connection, and what becomes of it. -/
inductive Meets (session : Session) (kind : Kind) : Prop
  | found (hreached : session.reached kind = .ok ())
      (hopen : session.console.slots.closed = false)
      (hheld : (held session.console.slots kind).isSome = true)
      (hsame : session.connect kind = session)
  | connected (hreached : session.reached kind = .ok ())
      (hopen : session.console.slots.closed = false)
      (hempty : (held session.console.slots kind).isSome = false)
      (hstays : (session.connect kind).console.slots.closed = false)
      (hheld : ∀ other, (held (session.connect kind).console.slots other).isSome =
        ((held session.console.slots other).isSome || decide (other = kind)))
      (hcount : ∀ other, (session.connect kind).world.connects other =
        session.world.connects other + if other = kind then 1 else 0)
      (hclosed : (session.connect kind).world.isClosed = session.world.isClosed)
  | refused (failure : Failure) (hreached : session.reached kind = .error failure)
      (hsame : session.connect kind = session)

theorem meets (session : Session) (kind : Kind) : session.Meets kind := by
  rcases session with ⟨⟨_, _, _, _, refusing⟩, ⟨_, _, ⟨cluster, registry, closed⟩⟩, _⟩
  cases closed with
  | true => cases kind <;> exact .refused _ rfl rfl
  | false =>
      cases kind with
      | cluster =>
          cases cluster with
          | some handle => exact .found rfl rfl rfl rfl
          | none =>
              cases refusing with
              | true => exact .refused _ rfl rfl
              | false =>
                  refine .connected rfl rfl rfl rfl (fun other => ?_) (fun other => ?_) rfl
                  · cases other <;> cases registry <;> rfl
                  · cases other <;> rfl
      | registry =>
          cases registry with
          | some handle => exact .found rfl rfl rfl rfl
          | none =>
              cases refusing with
              | true => exact .refused _ rfl rfl
              | false =>
                  refine .connected rfl rfl rfl rfl (fun other => ?_) (fun other => ?_) rfl
                  · cases other <;> cases cluster <;> rfl
                  · cases other <;> rfl

end Session

/-- What a use comes to for the links of its user and the books of the world. -/
inductive Use.Outcome (use : Use) (session last : Session) : Prop
  | reached (kind : Kind) (hseeks : use.seeks = some kind)
      (hreached : session.reached kind = .ok ())
      (hopen : session.console.slots.closed = false)
      (hstays : last.console.slots.closed = false)
      (hheld : ∀ other, (held last.console.slots other).isSome =
        ((held session.console.slots other).isSome || decide (other = kind)))
      (hcount : ∀ other, last.world.connects other = session.world.connects other +
        if other = kind ∧ (held session.console.slots kind).isSome = false then 1 else 0)
      (hclosed : last.world.isClosed = session.world.isClosed)
  | refused (kind : Kind) (failure : Failure) (hseeks : use.seeks = some kind)
      (hreached : session.reached kind = .error failure) (hsame : last = session)
  | closed (hcloses : use.closes = true) (hopen : session.console.slots.closed = false)
      (hshut : last.console.slots.closed = true)
      (hheld : ∀ kind, (held last.console.slots kind).isSome = false)
      (hworld : last.world = session.world.close fun kind =>
        (held session.console.slots kind).isSome)
  | closedBefore (hcloses : use.closes = true) (hshut : session.console.slots.closed = true)
      (hsame : last = session)
  | nothing (hseeks : use.seeks = none) (hcloses : use.closes = false) (hsame : last = session)

/-- Letting go of the connections that slots hold closes what they lead to. -/
theorem Wired.release_run {links : Links World} (hwired : Wired links) (world : World) :
    (Links.release links.slots).run world =
      ((), world.close fun kind => (held links.slots kind).isSome) := by
  rcases links with ⟨settings, dialer, ⟨cluster, registry, closed⟩⟩
  rcases world with ⟨⟨_, _, _, _, clusterClosed⟩, ⟨_, _, registryClosed⟩, _, _, _⟩
  cases cluster with
  | none =>
      cases registry with
      | none => cases clusterClosed <;> cases registryClosed <;> rfl
      | some registry =>
          obtain rfl := hwired.registry registry rfl
          cases clusterClosed <;> cases registryClosed <;> rfl
  | some cluster =>
      obtain rfl := hwired.cluster cluster rfl
      cases registry with
      | none => cases clusterClosed <;> cases registryClosed <;> rfl
      | some registry =>
          obtain rfl := hwired.registry registry rfl
          cases clusterClosed <;> cases registryClosed <;> rfl

namespace Use

variable {session : Session} {use : Use}

/-- The books after a use are those after its connection. -/
theorem seek_effect (hwired : session.Wired) {kind : Kind} (hseeks : use.seeks = some kind) :
    let last := ((Session.onConsole use.run).run session).2
    last.console = (session.connect kind).console ∧
      last.world.connects = (session.connect kind).world.connects ∧
      last.world.isClosed = (session.connect kind).world.isClosed := by
  intro last
  have hrun := run_eq hwired hseeks
  cases hreached : session.reached kind with
  | error failure =>
      rw [hreached] at hrun
      have hlast : last = session.connect kind := congrArg Prod.snd hrun
      rw [hlast]
      exact ⟨rfl, rfl, rfl⟩
  | ok value =>
      rw [hreached] at hrun
      have hkeeps := (use.madeOf_task session.console.settings).keeps
        (fun _ _ => TaskCall.keeps_books) (session.connect kind).world
      have hlast : last = ((Session.onWorld (use.task session.console.settings)).run
        (session.connect kind)).2 := congrArg Prod.snd hrun
      rw [hlast]
      exact ⟨rfl, congrArg Prod.fst hkeeps, congrArg Prod.snd hkeeps⟩

theorem close_effect (hwired : session.Wired) (hcloses : use.closes = true) :
    ((Session.onConsole use.run).run session).2 =
      if session.console.slots.closed then session
      else
        { session with
          console := { session.console with slots := session.console.slots.shut }
          world := session.world.close fun kind => (held session.console.slots kind).isSome } := by
  have hclose : ((Session.onConsole use.run).run session).2 =
      let run := (Links.close.run session.console).run session.world
      { session with console := run.1.2, world := run.2 } := by
    rcases eq_of_closes hcloses with rfl | rfl <;> rfl
  rw [hclose, Links.close_run, hwired.console.release_run]
  split <;> rfl

theorem outcome (hwired : session.Wired) :
    use.Outcome session ((Session.onConsole use.run).run session).2 := by
  cases hcloses : use.closes with
  | true =>
      rw [close_effect hwired hcloses]
      cases hclosed : session.console.slots.closed with
      | true => exact .closedBefore hcloses hclosed rfl
      | false => exact .closed hcloses hclosed rfl (fun kind => by cases kind <;> rfl) rfl
  | false =>
      cases hseeks : use.seeks with
      | none =>
          obtain rfl := eq_settings hseeks hcloses
          exact .nothing rfl rfl rfl
      | some kind =>
          -- The task that follows on the connection changes neither links nor books.
          obtain ⟨hconsole, hconnects, hclosed⟩ := seek_effect hwired hseeks
          cases session.meets kind with
          | found hreached hopen hheld hsame =>
              rw [hsame] at hconsole hconnects hclosed
              refine .reached kind hseeks hreached hopen (hconsole ▸ hopen) (fun other => ?_)
                (fun other => ?_) hclosed
              · rw [hconsole]
                by_cases hother : other = kind
                · simp [hother, hheld]
                · simp [hother]
              · rw [hconnects]
                simp [hheld]
          | connected hreached hopen hempty hstays hheld hcount hbooks =>
              refine .reached kind hseeks hreached hopen (hconsole ▸ hstays) (fun other => ?_)
                (fun other => ?_) (hclosed.trans hbooks)
              · rw [hconsole, hheld]
              · rw [hconnects, hcount]
                simp [hempty]
          | refused failure hreached hsame =>
              refine .refused kind failure hseeks hreached ?_
              have hrun := run_eq hwired hseeks
              rw [hreached, hsame] at hrun
              exact congrArg Prod.snd hrun

/-- A user stays connected to its world and to nothing else. -/
theorem wired (hwired : session.Wired) :
    Wired ((Session.onConsole use.run).run session).2.console := by
  cases hcloses : use.closes with
  | true =>
      rw [close_effect hwired hcloses]
      split
      · exact hwired.console
      · exact ⟨hwired.console.dialer, by simp [Slots.shut], by simp [Slots.shut]⟩
  | false =>
      cases hseeks : use.seeks with
      | none =>
          obtain rfl := eq_settings hseeks hcloses
          exact hwired.console
      | some kind =>
          rw [(seek_effect hwired hseeks).1]
          cases kind with
          | cluster => exact hwired.connectCluster.console
          | registry => exact hwired.connectRegistry.console

end Use

/-! ## Histories of a company -/

namespace Company

/-- Something that happens in a history, after some part of it. -/
def Occurs (happens : List Event → Event → Prop) (events : List Event) : Prop :=
  ∃ before event later, events = before ++ event :: later ∧ happens before event

theorem not_occurs_nil {happens : List Event → Event → Prop} : ¬Occurs happens [] := by
  rintro ⟨before, event, later, hevents, -⟩
  simp at hevents

theorem occurs_append_singleton {happens : List Event → Event → Prop} {events : List Event}
    {event : Event} :
    Occurs happens (events ++ [event]) ↔ Occurs happens events ∨ happens events event := by
  constructor
  · rintro ⟨before, first, later, hevents, hhappens⟩
    rcases List.eq_nil_or_concat later with rfl | ⟨others, last, rfl⟩
    · -- It is the event that was added.
      obtain ⟨rfl, hlast⟩ := List.append_inj' hevents rfl
      exact .inr (List.singleton_inj.mp hlast ▸ hhappens)
    · rw [List.concat_eq_append, ← List.cons_append, ← List.append_assoc] at hevents
      exact .inl ⟨before, first, others, List.append_inj_left' hevents rfl, hhappens⟩
  · rintro (⟨before, first, later, rfl, hhappens⟩ | hhappens)
    · exact ⟨before, first, later ++ [event], by simp, hhappens⟩
    · exact ⟨events, event, [], rfl, hhappens⟩

/-- A user makes use of a connection of a sort, and it is there or can be made. -/
def Event.Acquires (company : Company) (kind : Kind) (user : Nat) (event : Event) : Prop :=
  ∃ use : Use, event = .use user use ∧ use.seeks = some kind ∧
    ((step (.use user (.reach kind))).run company).1 = .acquired (.ok ())

/-- A user that is there is closed. -/
def Event.Shuts (company : Company) (user : Nat) (event : Event) : Prop :=
  ∃ use : Use, event = .use user use ∧ use.closes = true ∧ user < company.users.length

/-- A user has reached a connection of a sort at least once. -/
def Acquired (kind : Kind) (user : Nat) : List Event → Prop :=
  Occurs fun before event => event.Acquires (after before) kind user

def WasShut (user : Nat) : List Event → Prop :=
  Occurs fun before event => event.Shuts (after before) user

/-- A user is closed that has reached a connection of a sort before. -/
def LetGo (kind : Kind) (user : Nat) : List Event → Prop :=
  Occurs fun before event => event.Shuts (after before) user ∧ Acquired kind user before

/-- The deed that closes what connections of a sort lead to. -/
def closing : Kind → Deed
  | .cluster => .editCluster .close
  | .registry => .editRegistry .close

section

variable {kind : Kind} {user : Nat} {events : List Event} {event : Event}

theorem acquired_append_singleton :
    Acquired kind user (events ++ [event]) ↔
      Acquired kind user events ∨ event.Acquires (after events) kind user :=
  occurs_append_singleton

theorem wasShut_append_singleton :
    WasShut user (events ++ [event]) ↔ WasShut user events ∨ event.Shuts (after events) user :=
  occurs_append_singleton

theorem letGo_append_singleton :
    LetGo kind user (events ++ [event]) ↔
      LetGo kind user events ∨ (event.Shuts (after events) user ∧ Acquired kind user events) :=
  occurs_append_singleton

end

/-- A company as its history tells. -/
structure Told (events : List Event) (company : Company) : Prop where
  wired : ∀ (user : Nat) links, company.users[user]? = some links → Wired links
  -- So those that have acquired a connection are finitely many.
  present : ∀ kind user, Acquired kind user events → user < company.users.length
  shut_present : ∀ user, WasShut user events → user < company.users.length
  shut : ∀ (user : Nat) links, company.users[user]? = some links →
    (links.slots.closed = true ↔ WasShut user events)
  held : ∀ (user : Nat) links kind, company.users[user]? = some links →
    ((held links.slots kind).isSome = true ↔ Acquired kind user events ∧ ¬WasShut user events)
  letGo : ∀ kind user, Acquired kind user events → WasShut user events → LetGo kind user events
  connects : ∀ kind, company.world.connects kind = {user | Acquired kind user events}.ncard
  isClosed : ∀ kind, company.world.isClosed kind = true ↔
    .apart (closing kind) ∈ events ∨ ∃ user, LetGo kind user events

theorem told_nil : Told [] {} where
  wired := by simp
  present _ _ hacquired := absurd hacquired not_occurs_nil
  shut_present _ hshut := absurd hshut not_occurs_nil
  shut := by simp
  held := by simp
  letGo _ _ hacquired := absurd hacquired not_occurs_nil
  connects kind := by
    have hnone : {user | Acquired kind user []} = ∅ :=
      Set.eq_empty_of_forall_notMem fun _ => not_occurs_nil
    rw [hnone, Set.ncard_empty]
    cases kind <;> rfl
  isClosed kind := by
    refine ⟨fun hclosed => ?_, ?_⟩
    · cases kind <;> cases hclosed
    · rintro (hmem | ⟨user, hletGo⟩)
      · cases hmem
      · exact absurd hletGo not_occurs_nil

namespace Told

variable {events : List Event} {event : Event} {before company : Company}

/-- An event that tells nothing new, and leaves the links of all users as they are. -/
theorem of_nothing_new (htold : Told events before)
    (hacquired : ∀ kind user, Acquired kind user (events ++ [event]) ↔ Acquired kind user events)
    (hshut : ∀ user, WasShut user (events ++ [event]) ↔ WasShut user events)
    (hletGo : ∀ kind user, LetGo kind user (events ++ [event]) ↔ LetGo kind user events)
    (hconnects : company.world.connects = before.world.connects)
    (hclosed : ∀ kind, company.world.isClosed kind = true ↔
      before.world.isClosed kind = true ∨ event = .apart (closing kind))
    (hlength : before.users.length ≤ company.users.length)
    (husers : ∀ (user : Nat) links, company.users[user]? = some links →
      before.users[user]? = some links ∨
        (before.users.length ≤ user ∧ ∃ settings, links = Session.freshLinks settings)) :
    Told (events ++ [event]) company where
  wired user links huser := by
    rcases husers user links huser with hold | ⟨-, settings, rfl⟩
    · exact htold.wired user links hold
    · exact .fresh settings
  present kind user hacquired' :=
    (htold.present kind user ((hacquired kind user).mp hacquired')).trans_le hlength
  shut_present user hshut' := (htold.shut_present user ((hshut user).mp hshut')).trans_le hlength
  shut user links huser := by
    rw [hshut]
    rcases husers user links huser with hold | ⟨hfresh, settings, rfl⟩
    · exact htold.shut user links hold
    · have hnot : ¬WasShut user events := fun hwas =>
        absurd (htold.shut_present user hwas) (by omega)
      simp [Session.freshLinks, hnot]
  held user links kind huser := by
    rw [hshut, hacquired]
    rcases husers user links huser with hold | ⟨hfresh, settings, rfl⟩
    · exact htold.held user links kind hold
    · have hnot : ¬Acquired kind user events := fun hwas =>
        absurd (htold.present kind user hwas) (by omega)
      cases kind <;> simp [Session.freshLinks, Sharing.held, hnot]
  letGo kind user hacquired' hshut' :=
    (hletGo kind user).mpr (htold.letGo kind user ((hacquired kind user).mp hacquired')
      ((hshut user).mp hshut'))
  connects kind := by
    rw [hconnects, htold.connects kind]
    simp only [hacquired]
  isClosed kind := by
    rw [hclosed, htold.isClosed kind]
    simp only [List.mem_append, List.mem_singleton, hletGo, @eq_comm _ event]
    tauto

end Told

/-! ### One event more -/

/-- The session in which a user has the console. -/
def seat (company : Company) (links : Links World) : Session :=
  { world := company.world, console := links, links }

section

variable {company : Company} {user : Nat} {links : Links World}

theorem use_run (huser : company.users[user]? = some links) (use : Use) :
    (step (.use user use)).run company =
      let run := (Session.onConsole use.run).run (company.seat links)
      (run.1, { world := run.2.world, users := company.users.set user run.2.console }) := by
  rw [step, asUser_run huser]
  rfl

theorem use_run_of_absent (habsent : company.users[user]? = none) (use : Use) :
    (step (.use user use)).run company = (.nothing, company) := by
  simp only [step, asUser, StateT.run, habsent]

theorem seat_wired (hwired : Wired links) : (company.seat links).Wired :=
  ⟨hwired, hwired⟩

theorem reach_succeeds (huser : company.users[user]? = some links) (hwired : Wired links)
    (kind : Kind) : ((step (.use user (.reach kind))).run company).1 = .acquired (.ok ()) ↔
      (company.seat links).reached kind = .ok () := by
  have hseeks : (Use.reach kind).seeks = some kind := rfl
  rw [use_run huser, Use.run_eq (seat_wired hwired) hseeks]
  cases (company.seat links).reached kind with
  | ok value => simp only [iff_true]; rfl
  | error failure => simp [Use.refused]

theorem acquires_use (huser : company.users[user]? = some links) (hwired : Wired links)
    {use : Use} {kind : Kind} {other : Nat} :
    (Event.use user use).Acquires company kind other ↔
      other = user ∧ use.seeks = some kind ∧ (company.seat links).reached kind = .ok () := by
  constructor
  · rintro ⟨_, ⟨⟩, hseeks, hanswer⟩
    exact ⟨rfl, hseeks, (reach_succeeds huser hwired kind).mp hanswer⟩
  · rintro ⟨rfl, hseeks, hreached⟩
    exact ⟨use, rfl, hseeks, (reach_succeeds huser hwired kind).mpr hreached⟩

theorem shuts_use (huser : company.users[user]? = some links) {use : Use} {other : Nat} :
    (Event.use user use).Shuts company other ↔ other = user ∧ use.closes = true := by
  constructor
  · rintro ⟨_, ⟨⟩, hcloses, -⟩
    exact ⟨rfl, hcloses⟩
  · rintro ⟨rfl, hcloses⟩
    exact ⟨use, rfl, hcloses, (List.getElem?_eq_some_iff.mp huser).1⟩

end

theorem closed_clusterEdit (edit : ClusterEdit) (cluster : ClusterState) :
    (edit.apply cluster).closed = true ↔ cluster.closed = true ∨ edit = .close := by
  cases edit <;> simp [ClusterEdit.apply, ClusterState.enlist, ClusterState.openTopic,
    ClusterState.appendPartition, ClusterState.assignCoordinator, ClusterState.modifyBroker]

theorem closed_registryEdit (edit : RegistryEdit) (registry : RegistryState) :
    (edit.apply registry).closed = true ↔ registry.closed = true ∨ edit = .close := by
  cases edit <;> simp [RegistryEdit.apply, RegistryState.create, RegistryState.remove,
    RegistryState.recordGroup, RegistryState.recordOwner, RegistryState.blockPath]

/-- Deeds make no connections, and close nothing but what they are there to close. -/
theorem deed_books (deed : Deed) (world : World) :
    (deed.run.run world).2.connects = world.connects ∧
      ∀ kind, (deed.run.run world).2.isClosed kind = true ↔
        world.isClosed kind = true ∨ deed = closing kind := by
  have hother (hdeed : ∀ kind, deed ≠ closing kind)
      (hkeeps : Keeps (fun world => (world.connects, world.isClosed)) deed.run) :
      (deed.run.run world).2.connects = world.connects ∧
        ∀ kind, (deed.run.run world).2.isClosed kind = true ↔
          world.isClosed kind = true ∨ deed = closing kind := by
    obtain ⟨hconnects, hclosed⟩ := Prod.ext_iff.mp (hkeeps world)
    refine ⟨hconnects, fun kind => ?_⟩
    simpa [hdeed kind] using congrFun hclosed kind
  have hstep (world : World) : (deed.run.run world).2 = ((Session.step deed.step).run
      ⟨world, Session.freshLinks {}, Session.freshLinks {}⟩).2.world := rfl
  cases deed with
  | editCluster edit =>
      rw [hstep, Deed.step, editCluster_session]
      refine ⟨rfl, fun kind => ?_⟩
      cases kind <;> simp [World.isClosed, closing, closed_clusterEdit]
  | editRegistry edit =>
      have hedit : ((Deed.editRegistry edit).run.run world).2 =
          { world with registry := edit.apply world.registry } := rfl
      rw [hedit]
      refine ⟨rfl, fun kind => ?_⟩
      cases kind <;> simp [World.isClosed, closing, closed_registryEdit]
  | call direct =>
      refine hother (fun kind => by cases kind <;> simp [closing]) ?_
      exact (madeOf_direct direct).keeps fun _ _ => TaskCall.keeps_books
  | editBroker id edit =>
      refine hother (fun kind => by cases kind <;> simp [closing]) fun world => ?_
      rw [hstep, Deed.step, editBroker_session]
      split <;> rfl
  | askBroker id request =>
      refine hother (fun kind => by cases kind <;> simp [closing]) fun world => ?_
      have hasked : ((Deed.askBroker id request).run.run world).2 = { world with
          cluster := ((World.onBroker? id (request.run id)).run world.cluster).2 } := rfl
      rw [hasked, World.onBroker?_run]
      cases world.cluster.brokers[id]? <;> rfl
  | _ => exact hother (fun kind => by cases kind <;> simp [closing]) fun _ => rfl

/-- The links of users after one of them has changed its own. -/
theorem of_getElem?_set {company : Company} {user other : Nat} {links links' found : Links World}
    (huser : company.users[user]? = some links)
    (hfound : (company.users.set user links')[other]? = some found) :
    (other = user ∧ found = links') ∨ (other ≠ user ∧ company.users[other]? = some found) := by
  have hlength := (List.getElem?_eq_some_iff.mp huser).1
  rw [List.getElem?_set] at hfound
  split at hfound
  · rename_i hsame
    rw [Option.some_inj] at hfound
    exact .inl ⟨hsame.symm, hfound.symm⟩
  · rename_i hother
    exact .inr ⟨Ne.symm hother, hfound⟩

namespace Told

variable {events : List Event}

theorem join (htold : Told events (after events)) (settings : Settings) :
    Told (events ++ [Event.join settings]) ((step (.join settings)).run (after events)).2 := by
  have hacquires (kind : Kind) (user : Nat) :
      ¬(Event.join settings).Acquires (after events) kind user := by
    rintro ⟨_, ⟨⟩, -⟩
  have hshuts (user : Nat) : ¬(Event.join settings).Shuts (after events) user := by
    rintro ⟨_, ⟨⟩, -⟩
  refine htold.of_nothing_new (fun kind user => ?_) (fun user => ?_) (fun kind user => ?_) rfl
    (fun kind => ?_) ?_ fun user links huser => ?_
  · simp [acquired_append_singleton, hacquires]
  · simp [wasShut_append_singleton, hshuts]
  · simp [letGo_append_singleton, hshuts]
  · change (after events).world.isClosed kind = true ↔ _
    simp
  · change _ ≤ ((after events).users ++ [Session.freshLinks settings]).length
    simp
  · change ((after events).users ++ [Session.freshLinks settings])[user]? = some links at huser
    rw [List.getElem?_append] at huser
    split at huser
    · exact .inl huser
    · rename_i hlength
      rw [List.getElem?_singleton] at huser
      split at huser
      · exact .inr ⟨by omega, settings, (Option.some_inj.mp huser).symm⟩
      · cases huser

theorem apart (htold : Told events (after events)) (deed : Deed) :
    Told (events ++ [Event.apart deed]) ((step (.apart deed)).run (after events)).2 := by
  have hacquires (kind : Kind) (user : Nat) :
      ¬(Event.apart deed).Acquires (after events) kind user := by
    rintro ⟨_, ⟨⟩, -⟩
  have hshuts (user : Nat) : ¬(Event.apart deed).Shuts (after events) user := by
    rintro ⟨_, ⟨⟩, -⟩
  obtain ⟨hconnects, hclosed⟩ := deed_books deed (after events).world
  refine htold.of_nothing_new (fun kind user => ?_) (fun user => ?_) (fun kind user => ?_)
    hconnects (fun kind => ?_) le_rfl fun user links huser => .inl huser
  · simp [acquired_append_singleton, hacquires]
  · simp [wasShut_append_singleton, hshuts]
  · simp [letGo_append_singleton, hshuts]
  · rw [Event.apart.injEq]
    exact hclosed kind

theorem use_absent (htold : Told events (after events)) {user : Nat}
    (habsent : (after events).users[user]? = none) (use : Use) :
    Told (events ++ [Event.use user use]) ((step (.use user use)).run (after events)).2 := by
  have hacquires (kind : Kind) (other : Nat) :
      ¬(Event.use user use).Acquires (after events) kind other := by
    rintro ⟨_, ⟨⟩, -, hanswer⟩
    rw [use_run_of_absent habsent] at hanswer
    cases hanswer
  have hshuts (other : Nat) : ¬(Event.use user use).Shuts (after events) other := by
    rintro ⟨_, ⟨⟩, -, hpresent⟩
    exact absurd (List.getElem?_eq_none_iff.mp habsent) (by omega)
  rw [use_run_of_absent habsent]
  refine htold.of_nothing_new (fun kind user => ?_) (fun user => ?_) (fun kind user => ?_) rfl
    (fun kind => ?_) le_rfl fun user links huser => .inl huser
  · simp [acquired_append_singleton, hacquires]
  · simp [wasShut_append_singleton, hshuts]
  · simp [letGo_append_singleton, hshuts]
  · simp

section

variable (htold : Told events (after events)) {user : Nat} {links : Links World}
  (huser : (after events).users[user]? = some links) {use : Use}
include htold huser

/-- After a use there is something new to tell about its user only. -/
theorem of_use {last : Session}
    (hlast : ((Session.onConsole use.run).run ((after events).seat links)).2 = last)
    (hshut : last.console.slots.closed = true ↔ WasShut user (events ++ [Event.use user use]))
    (hheld : ∀ kind, (Sharing.held last.console.slots kind).isSome = true ↔
      Acquired kind user (events ++ [Event.use user use]) ∧
        ¬WasShut user (events ++ [Event.use user use]))
    (hletGo : ∀ kind, Acquired kind user (events ++ [Event.use user use]) →
      WasShut user (events ++ [Event.use user use]) →
        LetGo kind user (events ++ [Event.use user use]))
    (hconnects : ∀ kind, last.world.connects kind =
      {who | Acquired kind who (events ++ [Event.use user use])}.ncard)
    (hclosed : ∀ kind, last.world.isClosed kind = true ↔
      .apart (closing kind) ∈ events ∨ ∃ who, LetGo kind who (events ++ [Event.use user use])) :
    Told (events ++ [Event.use user use]) ((step (.use user use)).run (after events)).2 := by
  have hwired := htold.wired user links huser
  have hlength := (List.getElem?_eq_some_iff.mp huser).1
  -- Nobody else has acquired or let go of anything by this use.
  have hacquired' (kind : Kind) {who : Nat} (hwho : who ≠ user) :
      Acquired kind who (events ++ [Event.use user use]) ↔ Acquired kind who events := by
    simp [acquired_append_singleton, acquires_use huser hwired, hwho]
  have hshut' {who : Nat} (hwho : who ≠ user) :
      WasShut who (events ++ [Event.use user use]) ↔ WasShut who events := by
    simp [wasShut_append_singleton, shuts_use huser, hwho]
  have hletGo' (kind : Kind) {who : Nat} (hwho : who ≠ user) :
      LetGo kind who (events ++ [Event.use user use]) ↔ LetGo kind who events := by
    simp [letGo_append_singleton, shuts_use huser, hwho]
  rw [use_run huser]
  dsimp only
  rw [hlast]
  refine
    { wired := fun who found hfound => ?wired
      present := fun kind who hwho => ?present
      shut_present := fun who hwho => ?shut_present
      shut := fun who found hfound => ?shut
      held := fun who found kind hfound => ?held
      letGo := fun kind who hacquired hwas => ?letGo
      connects := hconnects
      isClosed := fun kind => ?isClosed }
  case wired =>
    rcases of_getElem?_set huser hfound with ⟨rfl, rfl⟩ | ⟨-, hold⟩
    · exact hlast ▸ Use.wired (seat_wired hwired)
    · exact htold.wired who found hold
  case present =>
    rw [List.length_set]
    by_cases hother : who = user
    · exact hother ▸ hlength
    · exact htold.present kind who ((hacquired' kind hother).mp hwho)
  case shut_present =>
    rw [List.length_set]
    by_cases hother : who = user
    · exact hother ▸ hlength
    · exact htold.shut_present who ((hshut' hother).mp hwho)
  case shut =>
    rcases of_getElem?_set huser hfound with ⟨rfl, rfl⟩ | ⟨hother, hold⟩
    · exact hshut
    · exact (htold.shut who found hold).trans (hshut' hother).symm
  case held =>
    rcases of_getElem?_set huser hfound with ⟨rfl, rfl⟩ | ⟨hother, hold⟩
    · exact hheld kind
    · rw [hacquired' kind hother, hshut' hother]
      exact htold.held who found kind hold
  case letGo =>
    by_cases hother : who = user
    · subst hother
      exact hletGo kind hacquired hwas
    · exact (hletGo' kind hother).mpr
        (htold.letGo kind who ((hacquired' kind hother).mp hacquired) ((hshut' hother).mp hwas))
  case isClosed =>
    rw [hclosed kind]
    simp

/-- A use that leaves everything as it is. -/
theorem use_idle
    (hacquired : ∀ kind, use.seeks = some kind →
      ((after events).seat links).reached kind = .ok () → Acquired kind user events)
    (hshut : use.closes = true → WasShut user events)
    (hsame : ((Session.onConsole use.run).run ((after events).seat links)).2 =
      (after events).seat links) :
    Told (events ++ [Event.use user use]) ((step (.use user use)).run (after events)).2 := by
  have hacquired' (kind : Kind) (who : Nat) :
      Acquired kind who (events ++ [Event.use user use]) ↔ Acquired kind who events := by
    rw [acquired_append_singleton, acquires_use huser (htold.wired user links huser)]
    refine or_iff_left_of_imp ?_
    rintro ⟨rfl, hseeks, hreached⟩
    exact hacquired kind hseeks hreached
  have hshut' (who : Nat) : WasShut who (events ++ [Event.use user use]) ↔ WasShut who events := by
    rw [wasShut_append_singleton, shuts_use huser]
    refine or_iff_left_of_imp ?_
    rintro ⟨rfl, hcloses⟩
    exact hshut hcloses
  have hletGo' (kind : Kind) (who : Nat) :
      LetGo kind who (events ++ [Event.use user use]) ↔ LetGo kind who events := by
    rw [letGo_append_singleton, shuts_use huser]
    refine or_iff_left_of_imp ?_
    rintro ⟨⟨rfl, hcloses⟩, hwho⟩
    exact htold.letGo kind who hwho (hshut hcloses)
  refine htold.of_use huser hsame ?_ (fun kind => ?_) (fun kind hwho hwas => ?_) (fun kind => ?_)
    fun kind => ?_
  · rw [hshut']
    exact htold.shut user links huser
  · rw [hacquired', hshut']
    exact htold.held user links kind huser
  · exact (hletGo' kind user).mpr
      (htold.letGo kind user ((hacquired' kind user).mp hwho) ((hshut' user).mp hwas))
  · simp only [hacquired']
    exact htold.connects kind
  · simp only [hletGo']
    exact htold.isClosed kind

/-- A user that is not shut holds what it has acquired. -/
theorem held_of_open (hopen : links.slots.closed = false) :
    ¬WasShut user events ∧
      ∀ kind, (Sharing.held links.slots kind).isSome = true ↔ Acquired kind user events := by
  have hnot : ¬WasShut user events := fun hwas => by
    rw [(htold.shut user links huser).mpr hwas] at hopen
    cases hopen
  exact ⟨hnot, fun kind => by rw [htold.held user links kind huser, and_iff_left hnot]⟩

/-- A use that reaches its connection. The user counts unless it did so before. -/
theorem use_reached {kind : Kind} (hseeks : use.seeks = some kind)
    (hreached : ((after events).seat links).reached kind = .ok ())
    (hopen : links.slots.closed = false) {last : Session}
    (hlast : ((Session.onConsole use.run).run ((after events).seat links)).2 = last)
    (hstays : last.console.slots.closed = false)
    (hheld : ∀ other, (Sharing.held last.console.slots other).isSome =
      ((Sharing.held links.slots other).isSome || decide (other = kind)))
    (hcount : ∀ other, last.world.connects other = (after events).world.connects other +
      if other = kind ∧ (Sharing.held links.slots kind).isSome = false then 1 else 0)
    (hclosed : last.world.isClosed = (after events).world.isClosed) :
    Told (events ++ [Event.use user use]) ((step (.use user use)).run (after events)).2 := by
  obtain ⟨hnot, holds⟩ := htold.held_of_open huser hopen
  have hcloses : use.closes = false := by
    cases hcloses : use.closes with
    | false => rfl
    | true => cases hseeks.symm.trans (Use.seeks_of_closes hcloses)
  have hacquired (other : Kind) (who : Nat) : Acquired other who (events ++ [Event.use user use]) ↔
      Acquired other who events ∨ (who = user ∧ other = kind) := by
    rw [acquired_append_singleton, acquires_use huser (htold.wired user links huser), hseeks]
    constructor
    · rintro (hwas | ⟨rfl, ⟨⟩, -⟩)
      · exact .inl hwas
      · exact .inr ⟨rfl, rfl⟩
    · rintro (hwas | ⟨rfl, rfl⟩)
      · exact .inl hwas
      · exact .inr ⟨rfl, rfl, hreached⟩
  have hshut (who : Nat) : WasShut who (events ++ [Event.use user use]) ↔ WasShut who events := by
    simp [wasShut_append_singleton, shuts_use huser, hcloses]
  have hletGo (other : Kind) (who : Nat) :
      LetGo other who (events ++ [Event.use user use]) ↔ LetGo other who events := by
    simp [letGo_append_singleton, shuts_use huser, hcloses]
  refine htold.of_use huser hlast ?_ (fun other => ?_) (fun other _ hwas => ?_) (fun other => ?_)
    fun other => ?_
  · simp [hstays, hshut, hnot]
  · simp [hshut, hacquired, hheld, hnot, ← holds]
  · exact absurd ((hshut user).mp hwas) hnot
  · rw [hcount, htold.connects other]
    split
    · rename_i hfresh
      -- The slot was empty, so the user has not been counted yet.
      obtain ⟨rfl, hempty⟩ := hfresh
      have hset : {who | Acquired other who (events ++ [Event.use user use])} =
          insert user {who | Acquired other who events} := by
        ext who
        simp only [hacquired, Set.mem_ofPred_eq, Set.mem_insert_iff, and_true, or_comm]
      have hfinite : {who | Acquired other who events}.Finite :=
        (Set.finite_lt_nat _).subset fun who => htold.present other who
      have hfirst : user ∉ {who | Acquired other who events} := by
        simp [← holds, hempty]
      rw [hset, Set.ncard_insert_of_notMem hfirst hfinite]
    · rename_i hagain
      have hset : {who | Acquired other who (events ++ [Event.use user use])} =
          {who | Acquired other who events} := by
        ext who
        rw [Set.mem_ofPred_eq, hacquired]
        refine or_iff_left_of_imp ?_
        rintro ⟨rfl, rfl⟩
        refine (holds other).mp ?_
        by_contra hempty
        exact hagain ⟨rfl, Bool.eq_false_iff.mpr hempty⟩
      rw [hset, Nat.add_zero]
  · simp only [hclosed, hletGo]
    exact htold.isClosed other

/-- A use that closes the links of its user, and what they led to. -/
theorem use_closed (hcloses : use.closes = true) (hopen : links.slots.closed = false)
    {last : Session}
    (hlast : ((Session.onConsole use.run).run ((after events).seat links)).2 = last)
    (hshutNow : last.console.slots.closed = true)
    (hheld : ∀ kind, (Sharing.held last.console.slots kind).isSome = false)
    (hworld : last.world = (after events).world.close fun kind =>
      (Sharing.held links.slots kind).isSome) :
    Told (events ++ [Event.use user use]) ((step (.use user use)).run (after events)).2 := by
  have hwired := htold.wired user links huser
  obtain ⟨-, holds⟩ := htold.held_of_open huser hopen
  have hacquired (kind : Kind) (who : Nat) :
      Acquired kind who (events ++ [Event.use user use]) ↔ Acquired kind who events := by
    simp [acquired_append_singleton, acquires_use huser hwired, Use.seeks_of_closes hcloses]
  have hshut : WasShut user (events ++ [Event.use user use]) := by
    simp [wasShut_append_singleton, shuts_use huser, hcloses]
  have hletGo (kind : Kind) (who : Nat) : LetGo kind who (events ++ [Event.use user use]) ↔
      LetGo kind who events ∨ (who = user ∧ Acquired kind who events) := by
    simp [letGo_append_singleton, shuts_use huser, hcloses]
  refine htold.of_use huser hlast ?_ (fun kind => ?_) (fun kind hwho _ => ?_) (fun kind => ?_)
    fun kind => ?_
  · simp [hshutNow, hshut]
  · simp [hheld, hshut]
  · exact (hletGo kind user).mpr (.inr ⟨rfl, (hacquired kind user).mp hwho⟩)
  · rw [hworld, World.connects_close, htold.connects kind]
    simp only [hacquired]
  · rw [hworld, World.isClosed_close, Bool.or_eq_true, htold.isClosed kind, holds kind]
    simp only [hletGo, exists_or, exists_eq_left]
    tauto

end

/-- Whatever happens in a company, it stays as its history tells. -/
theorem step (htold : Told events (after events)) (event : Event) :
    Told (events ++ [event]) ((Company.step event).run (after events)).2 := by
  cases event with
  | join settings => exact htold.join settings
  | apart deed => exact htold.apart deed
  | use user use =>
      cases huser : (after events).users[user]? with
      | none => exact htold.use_absent huser use
      | some links =>
          have hseat : ((after events).seat links).Wired :=
            seat_wired (htold.wired user links huser)
          cases use.outcome hseat with
          | reached kind hseeks hreached hopen hstays hheld hcount hclosed =>
              exact htold.use_reached huser hseeks hreached hopen rfl hstays hheld hcount hclosed
          | closed hcloses hopen hshut hheld hworld =>
              exact htold.use_closed huser hcloses hopen rfl hshut hheld hworld
          | refused kind failure hseeks hfailed hsame =>
              refine htold.use_idle huser (fun other hother hreached => ?_)
                (fun hcloses => ?_) hsame
              · obtain rfl : kind = other := Option.some_inj.mp (hseeks.symm.trans hother)
                cases hfailed.symm.trans hreached
              · cases hseeks.symm.trans (Use.seeks_of_closes hcloses)
          | closedBefore hcloses hshut hsame =>
              refine htold.use_idle huser (fun kind hseeks _ => ?_) (fun _ => ?_) hsame
              · cases hseeks.symm.trans (Use.seeks_of_closes hcloses)
              · exact (htold.shut user links huser).mp hshut
          | nothing hseeks hcloses hsame =>
              refine htold.use_idle huser (fun kind hother _ => ?_) (fun hcloses' => ?_) hsame
              · cases hseeks.symm.trans hother
              · cases hcloses.symm.trans hcloses'

end Told

theorem told (events : List Event) : Told events (after events) := by
  induction events using List.reverseRecOn with
  | nil => exact told_nil
  | append_singleton events event ih =>
      rw [after_append_singleton]
      exact ih.step event

end Company

end ConsumerGroups.Simulated
