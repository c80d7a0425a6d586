import ConsumerGroups.Proofs.Sharing.Room
import ConsumerGroups.Proofs.Simulated.Calls
import ConsumerGroups.Proofs.Simulated.Costs

/-! # What users do with their links

A user of the world asks for something, or closes its links. Whatever it asks for starts with a
connection of one sort: it is found in its slot, made, or refused. What follows is a task in the
world, which neither connects nor closes anything.
-/

namespace ConsumerGroups.Simulated

open Message Results Sharing

/-! ## Uses -/

/-- What a user does with its links: a call of a console, or a use of the bare links. -/
inductive Use
  | call (console : ConsoleCall)
  | reach (kind : Kind)
  | close
  | settings

namespace Use

def run : Use → StateT (Links World) (StateM World) Answer
  | call console => return .call (← console.run)
  | reach .cluster => return .acquired ((← Links.reachCluster.run).map fun _ => ())
  | reach .registry => return .acquired ((← Links.reachRegistry.run).map fun _ => ())
  | close => do
    Links.close
    return .nothing
  | settings => return .settings (← getThe (Links World)).settings

/-- The sort of connection that a use starts with. -/
def seeks : Use → Option Kind
  | call (.progress _ _) => some .cluster
  | call (.commit _ _ _) => some .cluster
  | call (.owners _ _) => some .registry
  | call (.ownersByGroup _) => some .registry
  | call .close => none
  | reach kind => some kind
  | close => none
  | settings => none

def closes : Use → Bool
  | call .close => true
  | close => true
  | _ => false

theorem eq_of_closes {use : Use} (hcloses : use.closes = true) :
    use = .call .close ∨ use = .close := by
  cases use with
  | call console =>
      cases console with
      | close => exact .inl rfl
      | _ => cases hcloses
  | close => exact .inr rfl
  | _ => cases hcloses

theorem seeks_of_closes {use : Use} (hcloses : use.closes = true) : use.seeks = none := by
  rcases eq_of_closes hcloses with rfl | rfl <;> rfl

/-- What neither seeks a connection nor closes any asks for the settings. -/
theorem eq_settings {use : Use} (hseeks : use.seeks = none) (hcloses : use.closes = false) :
    use = .settings := by
  cases use with
  | settings => rfl
  | call console =>
      cases console with
      | close => cases hcloses
      | _ => cases hseeks
  | reach kind => cases hseeks
  | close => cases hcloses

/-- What a use comes to if its connection fails. -/
def refused (failure : Failure) : Use → Answer
  | call (.progress _ _) => .call (.progress (.error failure))
  | call (.commit _ _ _) => .call (.committed (.error failure))
  | call (.owners _ _) => .call (.owners (.error failure))
  | call (.ownersByGroup _) => .call (.ownersByGroup (.error failure))
  | reach _ => .acquired (.error failure)
  | _ => .nothing

/-- What a use does in the world once it has its connection. -/
def task (settings : Settings) : Use → StateM World Answer
  | call (.progress group topic) =>
    return .call (.progress (← (Console.progressOn World.clusterView group topic).run))
  | call (.commit group topic batch) =>
    return .call (.committed (← (Commitment.commit World.clusterView group topic batch).run))
  | call (.owners group topic) =>
    let chroot := settings.registry.chroot
    return .call (.owners (← (Ownership.scan World.registryView chroot group topic).run))
  | call (.ownersByGroup topic) =>
    let chroot := settings.registry.chroot
    return .call (.ownersByGroup (← (Ownership.scanGroups World.registryView chroot topic).run))
  | reach _ => return .acquired (.ok ())
  | _ => return .nothing

theorem madeOf_task (settings : Settings) (use : Use) :
    MadeOf TaskCall (fun _ => True) (use.task settings) := by
  cases use with
  | call console =>
      cases console with
      | progress group topic =>
          exact (TaskCall.of_asks (World.madeOf_progressOn group topic)).answer _
      | commit group topic batch => exact (World.madeOf_commit group topic batch).answer _
      | owners group topic => exact (TaskCall.of_asks (World.madeOf_scan _ group topic)).answer _
      | ownersByGroup topic => exact (TaskCall.of_asks (World.madeOf_scanGroups _ topic)).answer _
      | close => exact .pure trivial
  | reach kind => exact .pure trivial
  | close => exact .pure trivial
  | settings => exact .pure trivial

end Use

/-- Direct calls are tasks in the world, too. -/
theorem madeOf_direct (call : DirectCall) :
    MadeOf TaskCall (fun _ => True) (call.run World.clusterView World.registryView) := by
  cases call with
  | survey topic => exact (TaskCall.of_asks (World.madeOf_survey topic)).answer _
  | fetchMarks group topic partitions =>
      exact (TaskCall.of_asks (World.madeOf_fetch group topic partitions)).answer _
  | commit group topic batch => exact (World.madeOf_commit group topic batch).answer _
  | scan chroot group topic =>
      exact (TaskCall.of_asks (World.madeOf_scan chroot group topic)).answer _
  | scanGroups chroot topic =>
      exact (TaskCall.of_asks (World.madeOf_scanGroups chroot topic)).answer _

/-! ## Connections of one sort -/

namespace Session

/-- The console makes use of a connection of one sort. -/
def connect (session : Session) : Kind → Session
  | .cluster => session.connectCluster
  | .registry => session.connectRegistry

/-- What the console meets when it makes use of a connection of one sort. -/
def reached (session : Session) : Kind → Except Failure Unit
  | .cluster => session.clusterReached.map fun _ => ()
  | .registry => session.registryReached.map fun _ => ()

end Session

/-- A use starts with its connection and goes on in the world. -/
theorem Use.run_eq {session : Session} (hwired : session.Wired) {use : Use} {kind : Kind}
    (hseeks : use.seeks = some kind) :
    (Session.onConsole use.run).run session =
      match session.reached kind with
      | .ok _ => (Session.onWorld (use.task session.console.settings)).run (session.connect kind)
      | .error failure => (use.refused failure, session.connect kind) := by
  -- All calls of a console over the cluster have one form, and those over the registry another.
  have hcluster {α : Type} (task : Cluster World → Errand World α)
      (wrap : Except Failure α → Answer) :
      let run := (Session.onConsole (ExceptT.run (Links.reachCluster >>= fun cluster =>
        LinkedErrand.ofTask (task cluster)))).run session
      (wrap run.1, run.2) =
        match session.reached .cluster with
        | .ok _ => (Session.onWorld (do return wrap (← (task World.clusterView).run))).run
            (session.connect .cluster)
        | .error failure => (wrap (.error failure), session.connect .cluster) := by
    dsimp only
    rw [Session.overCluster_run hwired, Session.reached]
    cases session.clusterReached <;> rfl
  have hregistry {α : Type} (task : Registry World → String → Errand World α)
      (wrap : Except Failure α → Answer) :
      let run := (Session.onConsole (ExceptT.run (Links.reachRegistry >>= fun registry =>
        Console.chroot >>= fun chroot => LinkedErrand.ofTask (task registry chroot)))).run session
      (wrap run.1, run.2) =
        match session.reached .registry with
        | .ok _ => (Session.onWorld (do
              return wrap (← (task World.registryView
                session.console.settings.registry.chroot).run))).run (session.connect .registry)
        | .error failure => (wrap (.error failure), session.connect .registry) := by
    dsimp only
    rw [Session.overRegistry_run hwired, Session.reached]
    cases session.registryReached <;> rfl
  cases use with
  | call console =>
      cases console with
      | progress group topic =>
          cases hseeks
          exact hcluster (fun cluster => Console.progressOn cluster group topic)
            fun result => .call (.progress result)
      | commit group topic batch =>
          cases hseeks
          exact hcluster (fun cluster => Commitment.commit cluster group topic batch)
            fun result => .call (.committed result)
      | owners group topic =>
          cases hseeks
          exact hregistry (fun registry chroot => Ownership.scan registry chroot group topic)
            fun result => .call (.owners result)
      | ownersByGroup topic =>
          cases hseeks
          exact hregistry (fun registry chroot => Ownership.scanGroups registry chroot topic)
            fun result => .call (.ownersByGroup result)
      | close => cases hseeks
  | reach kind =>
      cases hseeks
      cases kind with
      | cluster =>
          have hrun : (Session.onConsole (Use.reach .cluster).run).run session =
              let run := (Session.onConsole Links.reachCluster.run).run session
              (.acquired (run.1.map fun _ => ()), run.2) := rfl
          rw [hrun, run_reachCluster hwired.console.dialer, Session.reached]
          cases session.clusterReached <;> rfl
      | registry =>
          have hrun : (Session.onConsole (Use.reach .registry).run).run session =
              let run := (Session.onConsole Links.reachRegistry.run).run session
              (.acquired (run.1.map fun _ => ()), run.2) := rfl
          rw [hrun, run_reachRegistry hwired.console.dialer, Session.reached]
          cases session.registryReached <;> rfl
  | close => cases hseeks
  | settings => cases hseeks

/-! ## What tasks leave alone -/

namespace World

/-- How often a connection of a sort was made. -/
def connects (world : World) : Kind → Nat
  | .cluster => world.clusterConnects
  | .registry => world.registryConnects

/-- Whether what connections of a sort lead to is closed. -/
def isClosed (world : World) : Kind → Bool
  | .cluster => world.cluster.closed
  | .registry => world.registry.closed

/-- Closes what connections of some sorts lead to. -/
def close (world : World) (kinds : Kind → Bool) : World :=
  { world with
    cluster := { world.cluster with closed := world.cluster.closed || kinds .cluster }
    registry := { world.registry with closed := world.registry.closed || kinds .registry } }

theorem isClosed_close (world : World) (kinds : Kind → Bool) (kind : Kind) :
    (world.close kinds).isClosed kind = (world.isClosed kind || kinds kind) := by
  cases kind <;> rfl

theorem connects_close (world : World) (kinds : Kind → Bool) (kind : Kind) :
    (world.close kinds).connects kind = world.connects kind := by
  cases kind <;> rfl

theorem keeps_onBroker_books {α : Type} (id : Int32) (action : StateM BrokerState (Reply α)) :
    Keeps (fun world => (world.connects, world.isClosed)) (onBroker id action) := by
  intro world
  rw [onBroker_run]
  cases world.cluster.brokers[id]? <;> rfl

theorem commutes_onBroker (kinds : Kind → Bool) {α : Type} (id : Int32)
    (action : StateM BrokerState (Reply α)) :
    Commutes (fun world => world.close kinds) (onBroker id action) := by
  intro world
  have hbrokers : (world.close kinds).cluster.brokers = world.cluster.brokers := rfl
  rw [onBroker_run, onBroker_run, hbrokers]
  cases world.cluster.brokers[id]? <;> rfl

end World

/-- No task makes a connection or closes anything. -/
theorem TaskCall.keeps_books {β : Type} {action : StateM World β} (hcall : TaskCall β action) :
    Keeps (fun world => (world.connects, world.isClosed)) action := by
  cases hcall with
  | ask hask =>
      cases hask with
      | fetch id version request => exact World.keeps_onBroker_books id _
      | _ => exact fun _ => rfl
  | commit id version request => exact World.keeps_onBroker_books id _

/-- No task notices what is closed. -/
theorem TaskCall.commutes_close {β : Type} {action : StateM World β} (hcall : TaskCall β action)
    (kinds : Kind → Bool) : Commutes (fun world => world.close kinds) action := by
  cases hcall with
  | ask hask =>
      cases hask with
      | fetch id version request => exact World.commutes_onBroker kinds id _
      | _ => exact fun _ => rfl
  | commit id version request => exact World.commutes_onBroker kinds id _

end ConsumerGroups.Simulated
