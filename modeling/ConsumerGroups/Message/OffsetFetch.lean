import ConsumerGroups.Message.TopicEntry

/-! # Fetching committed offsets

The coordinator of a group is asked which marks the group committed. A response as a whole may
carry a code; otherwise each block holds the mark of one partition, whose metadata may be
missing.
-/

namespace ConsumerGroups.Message.OffsetFetch

def version : Int16 := 1

/-- A request; without topics it asks for all of them. Further groups can be asked for in
batches, which this version does not use. -/
structure Request where
  group : String
  topics : Option (List (TopicEntry Int32))
  requireStable : Bool := false
  furtherGroups : List String := []
deriving DecidableEq, Repr

/-- Asks for the marks of a group in some partitions of a topic. -/
def request (group topic : String) (partitions : List Int32) : Request :=
  { group, topics := some [⟨topic, partitions⟩] }

structure Block where
  partition : Int32
  offset : Int64
  metadata : Option String := some ""
  code : Int16 := 0
deriving DecidableEq, Repr

structure Response where
  throttleMs : Int32 := 0
  topics : List (TopicEntry Block) := []
  code : Int16 := 0
deriving DecidableEq, Repr

/-- The block that answers for a partition. -/
def Response.blockOf? (response : Response) (topic : String) (partition : Int32) :
    Option Block :=
  Message.blockOf? Block.partition topic partition response.topics

end ConsumerGroups.Message.OffsetFetch
