import ConsumerGroups.Failure
import ConsumerGroups.Message.TopicEntry

/-! # Listing the offsets of partitions

A broker that leads partitions is asked for one offset of each at an end of its log. Only
version 0 of the exchange answers with a list of offsets, so that is the version used; of the
list the first offset counts.
-/

namespace ConsumerGroups.Message.ListOffsets

def version : Int16 := 0

structure Query where
  partition : Int32
  leaderEpoch : Int32 := -1
  timestamp : Int64
  maxOffsets : Int32 := 1
deriving DecidableEq, Repr

/-- A request; the replica `-1` stands for an ordinary client. -/
structure Request where
  replica : Int32 := -1
  isolation : Int8 := 0
  topics : List (TopicEntry Query)
deriving DecidableEq, Repr

/-- Asks for one offset of each partition at a timestamp. -/
def request (topic : String) (partitions : List Int32) (timestamp : Int64) : Request :=
  { topics := [⟨topic, partitions.map fun partition => { partition, timestamp }⟩] }

/-- What is answered about one partition. Version 0 fills `offsets`; the later `offset` is
carried along and not read. -/
structure Block where
  partition : Int32
  code : Int16 := 0
  offsets : List Int64 := []
  timestamp : Int64 := -1
  offset : Int64 := -1
deriving DecidableEq, Repr

structure Response where
  throttleMs : Int32 := 0
  topics : List (TopicEntry Block)
deriving DecidableEq, Repr

/-- The single offset that a response holds for a partition. -/
def Response.offsetOf (response : Response) (topic : String) (partition : Int32) :
    Except Failure Int64 :=
  match blockOf? Block.partition topic partition response.topics with
  | none => .error (.protocol (.blockAbsent topic partition))
  | some block =>
    if block.code ≠ 0 then .error (.remote (.blockRefused topic partition) block.code)
    else
      match block.offsets with
      | [] => .error (.protocol (.offsetAbsent topic partition))
      | offset :: _ => .ok offset

end ConsumerGroups.Message.ListOffsets
