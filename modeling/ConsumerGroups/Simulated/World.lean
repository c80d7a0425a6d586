import ConsumerGroups.Links
import ConsumerGroups.Simulated.Edit

/-! # The simulated world

One cluster, one registry, and a dialer that hands out the same two on every connection and
counts how often it did. The collaborators of this module are views of one world: whatever one
user changes, all others see.
-/

namespace ConsumerGroups.Simulated

open Message

/-- The state of everything that is simulated. -/
structure World where
  cluster : ClusterState := {}
  registry : RegistryState := {}
  clusterConnects : Nat := 0
  registryConnects : Nat := 0
  /-- Whether attempts to connect are refused. -/
  refusing : Bool := false

namespace World

def onCluster {α : Type} (action : StateM ClusterState α) : StateM World α :=
  fun world =>
    let (answer, cluster) := action world.cluster
    (answer, { world with cluster })

def onRegistry {α : Type} (action : StateM RegistryState α) : StateM World α :=
  fun world =>
    let (answer, registry) := action world.registry
    (answer, { world with registry })

/-- An action on a broker of the cluster, if it is there. -/
def onBroker? {α : Type} (id : Int32) (action : StateM BrokerState α) :
    StateM ClusterState (Option α) :=
  fun cluster =>
    match cluster.brokers[id]? with
    | none => (none, cluster)
    | some broker =>
      let (answer, broker) := action broker
      (some answer, { cluster with brokers := cluster.brokers.insert id broker })

/-- An action on a broker of the world; a broker that is not there is a trouble. -/
def onBroker {α : Type} (id : Int32) (action : StateM BrokerState (Reply α)) :
    StateM World (Reply α) := do
  match ← onCluster (onBroker? id action) with
  | some answer => pure answer
  | none => pure (.error (Trouble.unknownBroker id).cause)

def broker (id : Int32) : Broker World where
  id := id
  listOffsets _ request := do
    match ← onCluster (onBroker? id (BrokerState.listOffsets id request)) with
    | some answer => pure answer
    | none => pure ⟨0, .error (Trouble.unknownBroker id).cause⟩

def coordinator (id : Int32) : Coordinator World where
  id := id
  fetch _ request := onBroker id (BrokerState.fetch id request)
  commit _ request := onBroker id (BrokerState.commit id request)

def clusterView : Cluster World where
  partitions topic := do return (← get).cluster.partitions topic
  leader topic partition := do
    return ((← get).cluster.leader ⟨topic, partition⟩).map World.broker
  coordinator group := do return ((← get).cluster.coordinator group).map World.coordinator
  close := onCluster (modify fun cluster => { cluster with closed := true })

def registryView : Registry World where
  children path := do return (← get).registry.children path
  read path := do return (← get).registry.read path
  close := onRegistry (modify fun registry => { registry with closed := true })

/-- Connects to the world. A refused attempt is not counted. -/
def dialer : Dialer World where
  cluster settings := do
    let world ← get
    if world.refusing then
      pure (.error (Trouble.refused settings.seedPeers).cause)
    else
      set { world with clusterConnects := world.clusterConnects + 1 }
      pure (.ok clusterView)
  registry settings := do
    let world ← get
    if world.refusing then
      pure (.error (Trouble.refused settings.seedPeers).cause)
    else
      set { world with registryConnects := world.registryConnects + 1 }
      pure (.ok registryView)

end World

end ConsumerGroups.Simulated
