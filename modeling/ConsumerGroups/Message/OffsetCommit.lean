import ConsumerGroups.Message.TopicEntry
import ConsumerGroups.Progress.Basic

/-! # Committing offsets

A commit made by an administrator belongs to no generation of the group, and takes as its time
the moment the coordinator receives it. The response reports one result for each partition it
has dealt with.
-/

namespace ConsumerGroups.Message.OffsetCommit

def version : Int16 := 1

/-- The generation of a commit that belongs to none. -/
def noGeneration : Int32 := -1

/-- The timestamp that stands for the time of receipt. -/
def timeOfReceipt : Int64 := -1

/-- The mark to commit for one partition. -/
structure Entry where
  partition : Int32
  offset : Int64
  leaderEpoch : Int32 := -1
  timestamp : Int64 := timeOfReceipt
  metadata : Option String
deriving DecidableEq, Repr

structure Request where
  group : String
  generation : Int32 := noGeneration
  member : String := ""
  instanceId : Option String := none
  retentionMs : Int64 := -1
  topics : List (TopicEntry Entry)
deriving DecidableEq, Repr

/-- The entry that commits the mark of a progress record. -/
def Entry.ofProgress (progress : Progress) : Entry :=
  { partition := progress.partition
    offset := progress.mark.offset
    metadata := some progress.mark.metadata }

/-- Commits the marks of some partitions of a topic, in their order. -/
def request (group topic : String) (batch : List Progress) : Request :=
  { group, topics := [⟨topic, batch.map Entry.ofProgress⟩] }

structure Result where
  partition : Int32
  code : Int16 := 0
deriving DecidableEq, Repr

structure Response where
  throttleMs : Int32 := 0
  topics : List (TopicEntry Result)
deriving DecidableEq, Repr

/-- The results for a topic, in the order of the response. -/
def Response.resultsOf (response : Response) (topic : String) : List Result :=
  blocksOf topic response.topics

end ConsumerGroups.Message.OffsetCommit
