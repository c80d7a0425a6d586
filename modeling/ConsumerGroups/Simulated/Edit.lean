import ConsumerGroups.Simulated.Cluster
import ConsumerGroups.Simulated.Registry

/-! # Edits of the simulated world

What can be done to a simulated broker, cluster or registry from outside, without asking it
anything. An edit never fails.
-/

namespace ConsumerGroups.Simulated

inductive BrokerEdit
  | putLog (place : TopicPartition) (log : PartitionLog)
  | dropLog (place : TopicPartition)
  | breakDown (reason : String)
  | refuseCommit (place : TopicPartition) (code : Int16)
  | refuseFetch (place : TopicPartition) (code : Int16)
  | refuseFetches (code : Int16)
  | hideMetadata (on : Bool)
  | muteCommits (on : Bool)
  | leaveOut (place : TopicPartition)
  | delayBy (ms : Nat)
deriving DecidableEq, Repr

def BrokerEdit.apply (broker : BrokerState) : BrokerEdit → BrokerState
  | putLog place log => { broker with logs := broker.logs.insert place log }
  | dropLog place => { broker with logs := broker.logs.erase place }
  | breakDown reason => { broker with outage := some reason }
  | refuseCommit place code => { broker with commitCodes := broker.commitCodes.insert place code }
  | refuseFetch place code => { broker with fetchCodes := broker.fetchCodes.insert place code }
  | refuseFetches code => { broker with fetchCode := code }
  | hideMetadata on => { broker with hidesMetadata := on }
  | muteCommits on => { broker with mutesCommits := on }
  | leaveOut place => { broker with omitted := broker.omitted.insert place }
  | delayBy ms => { broker with delay := ms }

inductive ClusterEdit
  | enlist (id : Int32)
  | openTopic (topic : String)
  | appendPartition (place : TopicPartition) (leader : Int32) (log : PartitionLog)
  | assignCoordinator (group : String) (id : Int32)
  | broker (id : Int32) (edit : BrokerEdit)
  | close
deriving DecidableEq, Repr

def ClusterEdit.apply (cluster : ClusterState) : ClusterEdit → ClusterState
  | enlist id => cluster.enlist id
  | openTopic topic => cluster.openTopic topic
  | appendPartition place id log => cluster.appendPartition place id log
  | assignCoordinator group id => cluster.assignCoordinator group id
  | broker id edit => cluster.modifyBroker id edit.apply
  | close => { cluster with closed := true }

inductive RegistryEdit
  | create (path : String) (bytes : List UInt8)
  | remove (path : String)
  | recordGroup (chroot group : String)
  | recordOwner (chroot group topic node client : String)
  | blockPath (path reason : String)
  | close
deriving DecidableEq, Repr

def RegistryEdit.apply (registry : RegistryState) : RegistryEdit → RegistryState
  | create path bytes => registry.create path bytes
  | remove path => registry.remove path
  | recordGroup chroot group => registry.recordGroup chroot group
  | recordOwner chroot group topic node client =>
    registry.recordOwner chroot group topic node client
  | blockPath path reason => registry.blockPath path reason
  | close => { registry with closed := true }

end ConsumerGroups.Simulated
