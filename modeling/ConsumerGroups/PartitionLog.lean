/-! # The log of a partition

A broker keeps the messages of a partition in a log with two ends. A request names the end it
asks for by a negative timestamp, since real timestamps are not negative.
-/

namespace ConsumerGroups

/-- An end of a log. -/
inductive Boundary
  | oldest
  | newest
deriving DecidableEq, Repr

namespace Boundary

/-- The timestamp that asks for this end. -/
def timestamp : Boundary → Int64
  | oldest => -2
  | newest => -1

def word : Boundary → String
  | oldest => "oldest"
  | newest => "newest"

/-- The end that a timestamp asks for; any timestamp but that of the oldest end asks for the
newest. -/
def ofTimestamp (timestamp : Int64) : Boundary :=
  if timestamp = oldest.timestamp then oldest else newest

end Boundary

/-- The offsets at the two ends of a log: that of the oldest message still there, and the one
the next message will get. -/
structure PartitionLog where
  oldest : Int64
  newest : Int64
deriving DecidableEq, Repr

def PartitionLog.offset (log : PartitionLog) : Boundary → Int64
  | .oldest => log.oldest
  | .newest => log.newest

end ConsumerGroups
