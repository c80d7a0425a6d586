import ConsumerGroups.Links

/-! # Recording collaborators

Every collaborator can be wrapped so that each call made on it is recorded with its answer, in
the order of the calls. The wrapped collaborator answers as the one inside; a broker, a
coordinator or a connection that it hands out is wrapped in turn. A delayed request is recorded
when it is sent.
-/

namespace ConsumerGroups

open Message

/-- A call on a collaborator with its answer. Of a broker or coordinator that is handed out
the identifier is recorded. -/
inductive Exchange
  | connectCluster (settings : ClusterSettings) (answer : Reply Unit)
  | connectRegistry (settings : RegistrySettings) (answer : Reply Unit)
  | partitions (topic : String) (answer : Reply (List Int32))
  | leader (topic : String) (partition : Int32) (answer : Reply Int32)
  | listOffsets (broker : Int32) (version : Int16) (request : ListOffsets.Request)
      (answer : Timed (Reply ListOffsets.Response))
  | coordinator (group : String) (answer : Reply Int32)
  | offsetFetch (coordinator : Int32) (version : Int16) (request : OffsetFetch.Request)
      (answer : Reply OffsetFetch.Response)
  | offsetCommit (coordinator : Int32) (version : Int16) (request : OffsetCommit.Request)
      (answer : Reply OffsetCommit.Response)
  | children (path : String) (answer : Except RegistryFault (List String))
  | read (path : String) (answer : Except RegistryFault (List UInt8))
  | closeCluster
  | closeRegistry

/-- A state with the exchanges recorded so far, in their order. -/
structure Recorded (σ : Type) where
  state : σ
  log : List Exchange := []

namespace Recorded

variable {σ α : Type}

/-- Makes a call on the inner state and records the exchange that it amounts to. -/
def call (exchange : α → Exchange) (action : StateM σ α) : StateM (Recorded σ) α :=
  fun recorded =>
    let (answer, state) := action recorded.state
    (answer, { state, log := recorded.log ++ [exchange answer] })

end Recorded

variable {σ : Type}

def Broker.recorded (broker : Broker σ) : Broker (Recorded σ) where
  id := broker.id
  listOffsets version request :=
    Recorded.call (.listOffsets broker.id version request) (broker.listOffsets version request)

def Coordinator.recorded (coordinator : Coordinator σ) : Coordinator (Recorded σ) where
  id := coordinator.id
  fetch version request :=
    Recorded.call (.offsetFetch coordinator.id version request)
      (coordinator.fetch version request)
  commit version request :=
    Recorded.call (.offsetCommit coordinator.id version request)
      (coordinator.commit version request)

/-- A cluster whose calls, and those on what it hands out, are recorded. -/
def Cluster.recorded (cluster : Cluster σ) : Cluster (Recorded σ) where
  partitions topic := Recorded.call (.partitions topic) (cluster.partitions topic)
  leader topic partition := do
    let answer ← Recorded.call (fun answer => .leader topic partition (answer.map (·.id)))
      (cluster.leader topic partition)
    pure (answer.map Broker.recorded)
  coordinator group := do
    let answer ← Recorded.call (fun answer => .coordinator group (answer.map (·.id)))
      (cluster.coordinator group)
    pure (answer.map Coordinator.recorded)
  close := Recorded.call (fun _ => .closeCluster) cluster.close

def Registry.recorded (registry : Registry σ) : Registry (Recorded σ) where
  children path := Recorded.call (.children path) (registry.children path)
  read path := Recorded.call (.read path) (registry.read path)
  close := Recorded.call (fun _ => .closeRegistry) registry.close

/-- A dialer whose attempts, and the calls on what it connects, are recorded. -/
def Dialer.recorded (dialer : Dialer σ) : Dialer (Recorded σ) where
  cluster settings := do
    let answer ← Recorded.call (fun answer => .connectCluster settings (answer.map fun _ => ()))
      (dialer.cluster settings)
    pure (answer.map Cluster.recorded)
  registry settings := do
    let answer ← Recorded.call (fun answer => .connectRegistry settings (answer.map fun _ => ()))
      (dialer.registry settings)
    pure (answer.map Registry.recorded)

end ConsumerGroups
