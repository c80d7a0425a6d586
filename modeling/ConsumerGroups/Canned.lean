import ConsumerGroups.Call
import ConsumerGroups.Recording

/-! # Canned collaborators

Collaborators whose answers are fixed beforehand and do not depend on what happened before.
They leave their state alone, so that they fit any. Only attempts to connect have a course of
their own: each takes the next of the given outcomes, and once those have run out every attempt
succeeds.
-/

namespace ConsumerGroups.Canned

open Message

/-- The cause of a reply that was not given. -/
def noReply : Cause := ["unscripted"]

/-- What a broker answers about either end of its logs. -/
structure BrokerReplies where
  id : Int32
  offsets : Boundary → Timed (Reply ListOffsets.Response)

structure CoordinatorReplies where
  id : Int32
  fetch : Reply OffsetFetch.Response
  commit : Reply OffsetCommit.Response

/-- What a cluster answers. -/
structure ClusterReplies where
  partitions : String → Reply (List Int32)
  leader : String → Int32 → Reply BrokerReplies
  coordinator : String → Reply CoordinatorReplies

structure RegistryReplies where
  children : String → Except RegistryFault (List String)
  read : String → Except RegistryFault (List UInt8)

variable {σ : Type}

/-- The broker that gives these replies. -/
def BrokerReplies.broker (replies : BrokerReplies) : Broker σ where
  id := replies.id
  listOffsets _ request := pure (replies.offsets (boundaryOf request))
where
  /-- The end of the logs that a request asks for first. -/
  boundaryOf (request : ListOffsets.Request) : Boundary :=
    match request.topics.flatMap (·.blocks) with
    | [] => .newest
    | query :: _ => .ofTimestamp query.timestamp

def CoordinatorReplies.coordinator (replies : CoordinatorReplies) : Coordinator σ where
  id := replies.id
  fetch _ _ := pure replies.fetch
  commit _ _ := pure replies.commit

def ClusterReplies.cluster (replies : ClusterReplies) : Cluster σ where
  partitions topic := pure (replies.partitions topic)
  leader topic partition := pure ((replies.leader topic partition).map BrokerReplies.broker)
  coordinator group := pure ((replies.coordinator group).map CoordinatorReplies.coordinator)
  close := pure ()

def RegistryReplies.registry (replies : RegistryReplies) : Registry σ where
  children path := pure (replies.children path)
  read path := pure (replies.read path)
  close := pure ()

/-- The outcomes of the attempts to connect that are still to come. -/
structure Attempts where
  cluster : List (Reply Unit) := []
  registry : List (Reply Unit) := []

namespace Attempts

/-- Takes the outcome of the next attempt to connect to the cluster. -/
def nextCluster : StateM Attempts (Reply Unit) :=
  modifyGet fun attempts =>
    (attempts.cluster.headD (.ok ()), { attempts with cluster := attempts.cluster.tail })

/-- Takes the outcome of the next attempt to connect to the registry. -/
def nextRegistry : StateM Attempts (Reply Unit) :=
  modifyGet fun attempts =>
    (attempts.registry.headD (.ok ()), { attempts with registry := attempts.registry.tail })

end Attempts

/-- Connects to a canned cluster and a canned registry. -/
def dialer (cluster : ClusterReplies) (registry : RegistryReplies) : Dialer Attempts where
  cluster _ := do return (← Attempts.nextCluster).map fun _ => cluster.cluster
  registry _ := do return (← Attempts.nextRegistry).map fun _ => registry.registry

/-- Everything that is fixed before a run. -/
structure Script where
  settings : Settings := {}
  cluster : ClusterReplies
  registry : RegistryReplies
  attempts : Attempts := {}

namespace Script

/-- The links of a console that connects to the script's collaborators and records them. -/
def links (script : Script) : Links (Recorded Attempts) where
  settings := script.settings
  dialer := (dialer script.cluster script.registry).recorded

/-- Makes one call on recorded collaborators; the exchanges are those of this call alone. -/
def runCall (script : Script) (call : Call) :
    StateT (Links (Recorded Attempts)) (StateM (Recorded Attempts))
      (CallAnswer × List Exchange) := do
  let answer ← call.run script.cluster.cluster.recorded script.registry.registry.recorded
  let recorded ← getThe (Recorded Attempts)
  set { recorded with log := [] }
  return (answer, recorded.log)

/-- Makes calls in order, all through one console. -/
def run (script : Script) (calls : List Call) : List (CallAnswer × List Exchange) :=
  ((calls.mapM script.runCall).run' script.links |>.run { state := script.attempts }).1

end Script

end ConsumerGroups.Canned
