/-! # Progress of a group

How far a consumer group has got in a partition: the two ends of the partition's log, and the
mark that the group last committed between them.
-/

namespace ConsumerGroups

/-- The offset and metadata that a group committed for a partition. -/
structure Mark where
  offset : Int64 := 0
  metadata : String := ""
deriving DecidableEq, Repr, Inhabited

/-- The ends of a partition's log beside a group's mark. -/
structure Progress where
  partition : Int32 := 0
  oldest : Int64 := 0
  newest : Int64 := 0
  mark : Mark := {}
deriving DecidableEq, Repr, Inhabited

namespace Progress

/-- What a commit needs to know: the partition and its new mark. -/
def toCommit (partition : Int32) (mark : Mark) : Progress :=
  { partition, mark }

end Progress

end ConsumerGroups
