import ConsumerGroups.Cluster
import ConsumerGroups.Progress.Basic

/-! # The marks of a group

The coordinator of a group keeps the marks it committed. Reading them demands a block for every
partition asked for. Committing sends one request; it is not atomic, and the first result with
a code is the failure that is reported.
-/

namespace ConsumerGroups.Commitment

open Message

variable {σ : Type}

/-- The mark of one partition, read from a response; missing metadata reads as none. -/
def markOf (response : OffsetFetch.Response) (topic : String) (partition : Int32) :
    Except Failure Mark :=
  match response.blockOf? topic partition with
  | none => .error (.protocol (.markAbsent partition))
  | some block =>
    if block.code ≠ 0 then .error (.remote (.markRefused partition) block.code)
    else .ok { offset := block.offset, metadata := block.metadata.getD "" }

/-- The marks of some partitions, read from a response. A code of the response as a whole comes
before any block is looked at. -/
def marksOf (response : OffsetFetch.Response) (group topic : String)
    (partitions : List Int32) : Except Failure (List Mark) :=
  if response.code ≠ 0 then .error (.remote (.committedMarksOf group) response.code)
  else partitions.mapM (markOf response topic)

/-- The marks that a group last committed, placed like the partitions asked for. -/
def fetch (cluster : Cluster σ) (group topic : String) (partitions : List Int32) :
    Errand σ (List Mark) := do
  let coordinator ← Errand.await .groupCoordinator (cluster.coordinator group)
  let request := OffsetFetch.request group topic partitions
  let response ← Errand.await .committedMarks (coordinator.fetch OffsetFetch.version request)
  Errand.ofExcept (marksOf response group topic partitions)

/-- What a response says about a commit: the first result with a code is a failure, and so is a
response without any result for the topic. -/
def acknowledged (response : OffsetCommit.Response) (topic : String) : Except Failure Unit :=
  let results := response.resultsOf topic
  match results.find? (·.code ≠ 0) with
  | some result => .error (.remote (.commitRefused result.partition) result.code)
  | none => if results.isEmpty then .error (.protocol (.commitUnanswered topic)) else .ok ()

/-- Commits a batch of marks. An empty batch sends nothing once the coordinator is known. -/
def commit (cluster : Cluster σ) (group topic : String) (batch : List Progress) :
    Errand σ Unit := do
  let coordinator ← Errand.await .groupCoordinator (cluster.coordinator group)
  if batch.isEmpty then
    pure ()
  else
    let request := OffsetCommit.request group topic batch
    let response ← Errand.await .commitRequest (coordinator.commit OffsetCommit.version request)
    Errand.ofExcept (acknowledged response topic)

end ConsumerGroups.Commitment
