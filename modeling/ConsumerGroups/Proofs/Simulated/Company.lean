import ConsumerGroups.Proofs.Simulated.Histories
import ConsumerGroups.Proofs.Simulated.Uses

/-! # Many users of one world

A company is a world with any number of users, each with links of its own. Users join at any time,
and none is forgotten: a user that another one replaces keeps its place. Everything else is done to
the world by nobody in particular. Every session is a company in which two of the users have the
console and the second links.
-/

namespace ConsumerGroups.Simulated

open Results

/-- What can be done in a session without its links. -/
inductive Deed
  | call (direct : DirectCall)
  | editCluster (edit : ClusterEdit)
  | askCluster (query : ClusterQuery)
  | editBroker (id : Int32) (edit : BrokerEdit)
  | askBroker (id : Int32) (request : BrokerRequest)
  | editRegistry (edit : RegistryEdit)
  | askRegistry (query : RegistryQuery)
  | refuse (on : Bool)
  | connects
  | closed

namespace Deed

def step : Deed → Step
  | call direct => .call (.direct direct)
  | editCluster edit => .editCluster edit
  | askCluster query => .askCluster query
  | editBroker id edit => .editBroker id edit
  | askBroker id request => .askBroker id request
  | editRegistry edit => .editRegistry edit
  | askRegistry query => .askRegistry query
  | refuse on => .link (.refuse on)
  | connects => .link .connects
  | closed => .link .closed

/-- The step of a session in which nobody is connected. -/
def run (deed : Deed) : StateM World Answer :=
  fun world =>
    let nobody := Session.freshLinks {}
    let (answer, session) := (Session.step deed.step).run ⟨world, nobody, nobody⟩
    (answer, session.world)

/-- A broker that is not there is not edited. -/
theorem editBroker_run (id : Int32) (edit : BrokerEdit) (session : Session) :
    (Session.step (.editBroker id edit)).run session =
      if id ∈ session.world.cluster.brokers then
        (.nothing, { session with
          world := { session.world with
            cluster := (ClusterEdit.broker id edit).apply session.world.cluster } })
      else (.noBroker, session) := by
  have hstep : (Session.step (.editBroker id edit)).run session =
      (if id ∈ session.world.cluster.brokers then
        Session.editCluster (.broker id edit)
      else
        pure .noBroker : StateM Session Answer).run session := rfl
  rw [hstep]
  split <;> rfl

/-- A deed does the same whoever is connected. -/
theorem step_run (deed : Deed) (session : Session) :
    (Session.step deed.step).run session = (Session.onWorld deed.run).run session := by
  have hrun : (Session.onWorld deed.run).run session =
      let nobody := Session.freshLinks {}
      let run := (Session.step deed.step).run ⟨session.world, nobody, nobody⟩
      (run.1, { session with world := run.2.world }) := rfl
  rw [hrun]
  cases deed with
  | editCluster edit => cases edit <;> rfl
  | editBroker id edit =>
      simp only [step, editBroker_run]
      split <;> rfl
  | _ => rfl

end Deed

structure Company where
  world : World := {}
  users : List (Links World) := []

namespace Company

/-- What happens in a company: a user joins, a user does something with its links, or something is
done to the world. -/
inductive Event
  | join (settings : Settings)
  | use (user : Nat) (use : Use)
  | apart (deed : Deed)

/-- Lets a user do something with its links, if there is such a user. -/
def asUser (user : Nat) (action : StateT (Links World) (StateM World) Answer) :
    StateM Company Answer :=
  fun company =>
    match company.users[user]? with
    | none => (.nothing, company)
    | some links =>
      let ((answer, links), world) := (action.run links).run company.world
      (answer, { world, users := company.users.set user links })

def step : Event → StateM Company Answer
  | .join settings => do
    modify fun company => { company with users := company.users ++ [Session.freshLinks settings] }
    return .nothing
  | .use user use => asUser user use.run
  | .apart deed => fun company =>
    let (answer, world) := deed.run.run company.world
    (answer, { company with world })

def run (events : List Event) : StateM Company (List Answer) :=
  events.mapM step

/-- The company that events lead to, from an empty world without users. -/
def after (events : List Event) : Company :=
  ((run events).run {}).2

theorem run_cons (event : Event) (rest : List Event) (company : Company) :
    (run (event :: rest)).run company =
      (((step event).run company).1 :: ((run rest).run ((step event).run company).2).1,
        ((run rest).run ((step event).run company).2).2) := by
  rw [run, mapM_cons_run]
  rfl

theorem run_append (before later : List Event) (company : Company) :
    ((run (before ++ later)).run company).2 =
      ((run later).run ((run before).run company).2).2 := by
  induction before generalizing company with
  | nil => rfl
  | cons event rest ih => rw [List.cons_append, run_cons, run_cons, ih]

theorem after_append_singleton (events : List Event) (event : Event) :
    after (events ++ [event]) = ((step event).run (after events)).2 := by
  rw [after, run_append, run_cons]
  rfl

theorem asUser_run {company : Company} {user : Nat} {links : Links World}
    (huser : company.users[user]? = some links)
    (action : StateT (Links World) (StateM World) Answer) :
    (asUser user action).run company =
      let run := (action.run links).run company.world
      (run.1.1, { world := run.2, users := company.users.set user run.1.2 }) := by
  change (match company.users[user]? with | none => _ | some links => _) = _
  rw [huser]
  rfl

/-! ## Sessions -/

/-- A company in which two users have the console and the second links of a session. -/
structure Seats (session : Session) (company : Company) (console links : Nat) : Prop where
  same : company.world = session.world
  atConsole : company.users[console]? = some session.console
  atLinks : company.users[links]? = some session.links
  apart : console ≠ links

/-- A company that goes along with a step of a session, and comes to the same answer. -/
def Follows (session : Session) (company : Company) (step : Step) : Prop :=
  ∃ events console links,
    Seats ((Session.step step).run session).2 ((run events).run company).2 console links ∧
      ((run events).run company).1.getLast? = some ((Session.step step).run session).1

section Seats

variable {session : Session} {company : Company} {console links : Nat}
  (hseats : Seats session company console links)
include hseats

theorem Seats.deed (deed : Deed) : Follows session company deed.step := by
  rcases session with ⟨world, seat, second⟩
  obtain ⟨hworld, hconsole, hlinks, hapart⟩ := hseats
  obtain rfl : company.world = world := hworld
  refine ⟨[.apart deed], console, links, ?_⟩
  rw [deed.step_run]
  exact ⟨⟨rfl, hconsole, hlinks, hapart⟩, rfl⟩

theorem Seats.useConsole (use : Use) {step : Step}
    (hstep : Session.step step = Session.onConsole use.run) : Follows session company step := by
  rcases session with ⟨world, seat, second⟩
  obtain ⟨hworld, hconsole, hlinks, hapart⟩ := hseats
  obtain rfl : company.world = world := hworld
  refine ⟨[.use console use], console, links, ?_⟩
  rw [run_cons, Company.step, asUser_run hconsole, hstep]
  refine ⟨⟨rfl, ?_, ?_, hapart⟩, rfl⟩
  · change (company.users.set console _)[console]? = _
    rw [List.getElem?_set_self', hconsole]
    rfl
  · change (company.users.set console _)[links]? = _
    rw [List.getElem?_set_ne hapart, hlinks]
    rfl

theorem Seats.useLinks (use : Use) {step : Step}
    (hstep : Session.step step = Session.onLinks use.run) : Follows session company step := by
  rcases session with ⟨world, seat, second⟩
  obtain ⟨hworld, hconsole, hlinks, hapart⟩ := hseats
  obtain rfl : company.world = world := hworld
  refine ⟨[.use links use], console, links, ?_⟩
  rw [run_cons, Company.step, asUser_run hlinks, hstep]
  refine ⟨⟨rfl, ?_, ?_, hapart⟩, rfl⟩
  · change (company.users.set links _)[console]? = _
    rw [List.getElem?_set_ne hapart.symm, hconsole]
    rfl
  · change (company.users.set links _)[links]? = _
    rw [List.getElem?_set_self', hlinks]
    rfl

theorem Seats.renew (settings : Settings) : Follows session company (.link (.renew settings)) := by
  -- The users that are replaced keep their places, and the new ones come after all others.
  refine ⟨[.join settings, .join settings], company.users.length, company.users.length + 1, ?_⟩
  refine ⟨⟨hseats.same, ?_, ?_, by omega⟩, rfl⟩
  · change ((company.users ++ [Session.freshLinks settings]) ++
      [Session.freshLinks settings])[company.users.length]? = some (Session.freshLinks settings)
    simp
  · change ((company.users ++ [Session.freshLinks settings]) ++
      [Session.freshLinks settings])[company.users.length + 1]? = some (Session.freshLinks settings)
    simp

/-- Whatever step a session takes, its company can go along. -/
theorem Seats.follows (step : Step) : Follows session company step := by
  cases step with
  | call call =>
      cases call with
      | console call => exact hseats.useConsole (.call call) rfl
      | direct call => exact hseats.deed (.call call)
  | editCluster edit => exact hseats.deed (.editCluster edit)
  | askCluster query => exact hseats.deed (.askCluster query)
  | editBroker id edit => exact hseats.deed (.editBroker id edit)
  | askBroker id request => exact hseats.deed (.askBroker id request)
  | editRegistry edit => exact hseats.deed (.editRegistry edit)
  | askRegistry query => exact hseats.deed (.askRegistry query)
  | link step =>
      cases step with
      | refuse on => exact hseats.deed (.refuse on)
      | connects => exact hseats.deed .connects
      | closed => exact hseats.deed .closed
      | reachCluster => exact hseats.useLinks (.reach .cluster) rfl
      | reachRegistry => exact hseats.useLinks (.reach .registry) rfl
      | close => exact hseats.useLinks .close rfl
      | settings => exact hseats.useLinks .settings rfl
      | renew settings => exact hseats.renew settings

end Seats

/-- Every session is a company. -/
theorem exists_seats (settings : Settings) (steps : List Step) :
    ∃ events console links, Seats (Session.after settings steps) (after events) console links := by
  induction steps using List.reverseRecOn with
  | nil => exact ⟨[.join settings, .join settings], 0, 1, ⟨rfl, rfl, rfl, by decide⟩⟩
  | append_singleton steps step ih =>
      obtain ⟨before, console, links, hseats⟩ := ih
      obtain ⟨events, console', links', hafter, -⟩ := hseats.follows step
      refine ⟨before ++ events, console', links', ?_⟩
      rw [after, run_append, Session.after_append]
      exact hafter

end Company

end ConsumerGroups.Simulated
