import ConsumerGroups.Call
import ConsumerGroups.Simulated.Bundle
import ConsumerGroups.Simulated.World

/-! # Sessions in the simulated world

A session has one world, a console on it, and a second set of links that is used on its own. Its
steps are the calls of the library, edits of the world, and questions to its parts. The steps of
a bundle do not wait for one another; as long as none of them reads what another changes, taking
them in order gives the same answers.
-/

namespace ConsumerGroups.Simulated

open Message

inductive ClusterQuery
  | hasBroker (id : Int32)
  | partitions (topic : String)
  | leader (place : TopicPartition)
  | coordinator (group : String)

/-- A question or request to one broker. -/
inductive BrokerRequest
  | mark (group : String) (place : TopicPartition)
  | listCalls
  | coordinatorId
  | listOffsets (request : ListOffsets.Request)
  | fetch (request : OffsetFetch.Request)
  | commit (request : OffsetCommit.Request)

inductive RegistryQuery
  | children (path : String)
  | read (path : String)

/-- A step on the connections of the session. -/
inductive LinkStep
  | refuse (on : Bool)
  | connects
  | closed
  | reachCluster
  | reachRegistry
  | close
  | settings
  | renew (settings : Settings)

inductive Step
  | call (call : Call)
  | editCluster (edit : ClusterEdit)
  | askCluster (query : ClusterQuery)
  | editBroker (id : Int32) (edit : BrokerEdit)
  | askBroker (id : Int32) (request : BrokerRequest)
  | editRegistry (edit : RegistryEdit)
  | askRegistry (query : RegistryQuery)
  | link (step : LinkStep)

inductive Answer
  | nothing
  | noBroker
  | call (answer : CallAnswer)
  | flag (value : Bool)
  | id (value : Int32)
  | count (value : Nat)
  | mark (mark : Option Mark)
  | partitions (reply : Reply (List Int32))
  | brokerId (reply : Reply Int32)
  | listed (reply : Reply ListOffsets.Response)
  | fetched (reply : Reply OffsetFetch.Response)
  | committed (reply : Reply OffsetCommit.Response)
  | children (reply : Except RegistryFault (List String))
  | bytes (reply : Except RegistryFault (List UInt8))
  | connects (cluster registry : Nat)
  | closed (cluster registry : Bool)
  | acquired (result : Except Failure Unit)
  | settings (settings : Settings)

def ClusterQuery.answer (cluster : ClusterState) : ClusterQuery → Answer
  | hasBroker id => .flag (id ∈ cluster.brokers)
  | partitions topic => .partitions (cluster.partitions topic)
  | leader place => .brokerId (cluster.leader place)
  | coordinator group => .brokerId (cluster.coordinator group)

def BrokerRequest.run (id : Int32) : BrokerRequest → StateM BrokerState Answer
  | mark group place => return .mark ((← get).mark? group place)
  | listCalls => return .count (← get).listCalls
  | coordinatorId => return .id id
  | listOffsets request => return .listed (← BrokerState.listOffsets id request).value
  | fetch request => return .fetched (← BrokerState.fetch id request)
  | commit request => return .committed (← BrokerState.commit id request)

def RegistryQuery.answer (registry : RegistryState) : RegistryQuery → Answer
  | children path => .children (registry.children path)
  | read path => .bytes (registry.read path)

/-- A world with its users. -/
structure Session where
  world : World
  console : Links World
  links : Links World

namespace Session

def freshLinks (settings : Settings) : Links World :=
  { settings, dialer := World.dialer }

/-- The start of a session: an empty world. -/
def start (settings : Settings) : Session :=
  { world := {}, console := freshLinks settings, links := freshLinks settings }

def onWorld {α : Type} (action : StateM World α) : StateM Session α :=
  fun session =>
    let (answer, world) := action session.world
    (answer, { session with world })

def onConsole {α : Type} (action : StateT (Links World) (StateM World) α) :
    StateM Session α :=
  fun session =>
    let ((answer, console), world) := (action.run session.console).run session.world
    (answer, { session with console, world })

def onLinks {α : Type} (action : StateT (Links World) (StateM World) α) : StateM Session α :=
  fun session =>
    let ((answer, links), world) := (action.run session.links).run session.world
    (answer, { session with links, world })

/-- Takes a step on the connections. Renewing replaces the console and the second links by
fresh ones. -/
def linkStep : LinkStep → StateM Session Answer
  | .refuse on => do
    onWorld (modify fun world => { world with refusing := on })
    return .nothing
  | .connects => do
    let world := (← get).world
    return .connects world.clusterConnects world.registryConnects
  | .closed => do
    let world := (← get).world
    return .closed world.cluster.closed world.registry.closed
  | .reachCluster => return .acquired ((← onLinks Links.reachCluster.run).map fun _ => ())
  | .reachRegistry => return .acquired ((← onLinks Links.reachRegistry.run).map fun _ => ())
  | .close => do
    onLinks Links.close
    return .nothing
  | .settings => return .settings (← get).links.settings
  | .renew settings => do
    modify fun session =>
      { session with console := freshLinks settings, links := freshLinks settings }
    return .nothing

/-- Edits the cluster; only adding a broker has an answer. -/
def editCluster (edit : ClusterEdit) : StateM Session Answer := do
  onWorld (World.onCluster (modify edit.apply))
  match edit with
  | .enlist id => return .id id
  | _ => return .nothing

/-- Edits a broker, if it is there. -/
def editBroker (id : Int32) (edit : BrokerEdit) : StateM Session Answer := do
  if id ∈ (← get).world.cluster.brokers then
    editCluster (.broker id edit)
  else
    return .noBroker

def step : Step → StateM Session Answer
  | .call call => return .call (← onConsole (call.run World.clusterView World.registryView))
  | .editCluster edit => editCluster edit
  | .askCluster query => return query.answer (← get).world.cluster
  | .editBroker id edit => editBroker id edit
  | .askBroker id request =>
    return (← onWorld (World.onCluster (World.onBroker? id (request.run id)))).getD .noBroker
  | .editRegistry edit => do
    onWorld (World.onRegistry (modify edit.apply))
    return .nothing
  | .askRegistry query => return query.answer (← get).world.registry
  | .link step => linkStep step

/-- Takes the steps of a bundle. Each has its answer in its own place. -/
def take (bundle : Bundle Step) : StateM Session (Bundle Answer) :=
  bundle.mapM step

def run (steps : List Step) : StateM Session (List Answer) :=
  steps.mapM step

def after (settings : Settings) (steps : List Step) : Session :=
  ((run steps).run (start settings)).2

/-- A bundle is taken as its steps are in order. -/
theorem items_take (bundle : Bundle Step) : Bundle.items <$> take bundle = run bundle.items :=
  bundle.items_mapM step

end Session

end ConsumerGroups.Simulated
