import ConsumerGroups.Errand
import ConsumerGroups.Message.ListOffsets
import ConsumerGroups.Message.OffsetCommit
import ConsumerGroups.Message.OffsetFetch
import ConsumerGroups.Timed

/-! # The cluster as its callers see it

A cluster tells which partitions a topic has, which broker leads a partition, and which broker
coordinates a group. How requests travel is up to the implementation; callers only build
requests and interpret responses.
-/

namespace ConsumerGroups

open Message

/-- A broker as the leader of partitions. Its reply is timed, because several brokers are
asked at the same time. -/
structure Broker (σ : Type) where
  id : Int32
  listOffsets : Int16 → ListOffsets.Request →
    StateM σ (Timed (Reply ListOffsets.Response))

/-- A broker as the coordinator of groups. -/
structure Coordinator (σ : Type) where
  id : Int32
  fetch : Int16 → OffsetFetch.Request → StateM σ (Reply OffsetFetch.Response)
  commit : Int16 → OffsetCommit.Request → StateM σ (Reply OffsetCommit.Response)

/-- A view of a cluster whose state is part of `σ`. Partitions are listed in the order in
which the cluster reports them. -/
structure Cluster (σ : Type) where
  partitions : String → StateM σ (Reply (List Int32))
  leader : String → Int32 → StateM σ (Reply (Broker σ))
  coordinator : String → StateM σ (Reply (Coordinator σ))
  close : StateM σ Unit

end ConsumerGroups
