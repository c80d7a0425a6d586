import Std.Data.ExtTreeMap

/-! # Ownership of partitions

Which client of a group owns which partitions of a topic. A client's partitions are kept in
ascending order without repetition, so that the map does not depend on the order in which
ownership was learned.
-/

namespace ConsumerGroups

/-- The partitions of every client that owns any. -/
abbrev Ownership := Std.ExtTreeMap String (List Int32)

/-- The ownership of a topic within every group that consumes it. -/
abbrev GroupOwnership := Std.ExtTreeMap String Ownership

namespace Ownership

/-- Adds a partition to an ascending list, unless it is there already. -/
def insertAscending (partition : Int32) : List Int32 → List Int32
  | [] => [partition]
  | other :: rest =>
    if partition < other then partition :: other :: rest
    else if partition = other then other :: rest
    else other :: insertAscending partition rest

/-- Records that a client owns a partition. -/
def claim (ownership : Ownership) (client : String) (partition : Int32) : Ownership :=
  ownership.alter client fun owned => some (insertAscending partition (owned.getD []))

end Ownership

end ConsumerGroups
