import ConsumerGroups.Commitment
import ConsumerGroups.Links
import ConsumerGroups.Ownership.Scan
import ConsumerGroups.Range.Survey

/-! # The console

The operations that an administrator has on consumer groups. Each connects to what it needs,
the cluster or the registry, and to nothing else.
-/

namespace ConsumerGroups.Console

variable {σ : Type}

/-- The range of every partition of a topic with the mark of a group. A topic without
partitions does not need the group's coordinator. -/
def progressOn (cluster : Cluster σ) (group topic : String) : Errand σ (List Progress) := do
  let ranges ← Range.survey cluster topic
  if ranges.isEmpty then
    pure ranges
  else
    let marks ← Commitment.fetch cluster group topic (ranges.map (·.partition))
    pure (ranges.zipWith (fun range mark => { range with mark }) marks)

/-- How far a group has got in every partition of a topic. -/
def progress (group topic : String) : LinkedErrand σ (List Progress) := do
  let cluster ← Links.reachCluster
  LinkedErrand.ofTask (progressOn cluster group topic)

/-- Commits the marks of some partitions of a topic on behalf of a group. -/
def commit (group topic : String) (batch : List Progress) : LinkedErrand σ Unit := do
  let cluster ← Links.reachCluster
  LinkedErrand.ofTask (Commitment.commit cluster group topic batch)

/-- The path in front of every path of the registry. -/
def chroot : LinkedErrand σ String := do
  return (← getThe (Links σ)).settings.registry.chroot

/-- Which client of a group owns which partitions of a topic. -/
def owners (group topic : String) : LinkedErrand σ Ownership := do
  let registry ← Links.reachRegistry
  LinkedErrand.ofTask (Ownership.scan registry (← chroot) group topic)

/-- Which client owns which partitions of a topic, in every group. -/
def ownersByGroup (topic : String) : LinkedErrand σ GroupOwnership := do
  let registry ← Links.reachRegistry
  LinkedErrand.ofTask (Ownership.scanGroups registry (← chroot) topic)

def close : StateT (Links σ) (StateM σ) Unit :=
  Links.close

end ConsumerGroups.Console
