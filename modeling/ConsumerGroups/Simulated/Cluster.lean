import ConsumerGroups.Simulated.Broker

/-! # A simulated cluster

A cluster knows its brokers, the partitions of its topics in the order in which they were added,
their leaders, and the coordinators of groups. A broker is created when it is first named as a
leader or a coordinator, and is never removed.
-/

namespace ConsumerGroups.Simulated

/-- What a simulated cluster knows. -/
structure ClusterState where
  brokers : Table Int32 BrokerState := ∅
  topics : Table String (List Int32) := ∅
  leaders : Table TopicPartition Int32 := ∅
  coordinators : Table String Int32 := ∅
  closed : Bool := false

namespace ClusterState

/-- Adds a broker, unless it is there. -/
def enlist (cluster : ClusterState) (id : Int32) : ClusterState :=
  { cluster with brokers := cluster.brokers.insertIfNew id {} }

/-- Changes a broker, if it is there. -/
def modifyBroker (cluster : ClusterState) (id : Int32) (f : BrokerState → BrokerState) :
    ClusterState :=
  { cluster with brokers := cluster.brokers.modify id f }

/-- Adds a topic without partitions, unless it is there. -/
def openTopic (cluster : ClusterState) (topic : String) : ClusterState :=
  { cluster with topics := cluster.topics.insertIfNew topic [] }

/-- Adds a partition at the end of its topic, led by a broker that keeps the given log. -/
def appendPartition (cluster : ClusterState) (place : TopicPartition) (leader : Int32)
    (log : PartitionLog) : ClusterState :=
  let cluster := (cluster.enlist leader).modifyBroker leader fun broker =>
    { broker with logs := broker.logs.insert place log }
  { cluster with
    topics := cluster.topics.alter place.topic fun listed =>
      some (listed.getD [] ++ [place.partition])
    leaders := cluster.leaders.insert place leader }

def assignCoordinator (cluster : ClusterState) (group : String) (id : Int32) : ClusterState :=
  let cluster := cluster.enlist id
  { cluster with coordinators := cluster.coordinators.insert group id }

/-- The broker with the given identifier, if the cluster has it. -/
def checkBroker (cluster : ClusterState) (id : Int32) : Reply Int32 :=
  if id ∈ cluster.brokers then .ok id else .error (Trouble.unknownBroker id).cause

def partitions (cluster : ClusterState) (topic : String) : Reply (List Int32) :=
  match cluster.topics[topic]? with
  | some listed => .ok listed
  | none => .error (Trouble.unknownTopic topic).cause

def leader (cluster : ClusterState) (place : TopicPartition) : Reply Int32 :=
  match cluster.leaders[place]? with
  | some id => cluster.checkBroker id
  | none => .error (Trouble.noLeader place.topic place.partition).cause

/-- The broker that coordinates a group: the one set for it, or else the one with the lowest
identifier. -/
def coordinator (cluster : ClusterState) (group : String) : Reply Int32 :=
  match cluster.coordinators[group]?.or cluster.brokers.minKey? with
  | some id => cluster.checkBroker id
  | none => .error Trouble.noBrokers.cause

end ClusterState

end ConsumerGroups.Simulated
