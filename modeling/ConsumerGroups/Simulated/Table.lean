import Std.Data.ExtTreeMap
import Std.Data.ExtTreeSet

/-! # Tables of the simulated world

What a simulated broker, cluster or registry knows is kept in tables. Two tables are equal when
they hold the same entries, whatever the order in which those were made, so that states of the
world can be compared. Partitions and the marks of groups are keyed field by field.
-/

namespace ConsumerGroups.Simulated

/-- A table from keys to values. -/
abbrev Table (κ α : Type) [Ord κ] := Std.ExtTreeMap κ α

structure TopicPartition where
  topic : String
  partition : Int32
deriving DecidableEq, Repr

namespace TopicPartition

instance : Ord TopicPartition :=
  ⟨compareLex (compareOn topic) (compareOn partition)⟩

instance : Std.TransOrd TopicPartition :=
  inferInstanceAs (Std.TransCmp (compareLex _ _))

instance : Std.LawfulEqOrd TopicPartition where
  eq_of_compare {a b} hequal := by
    have hequal : (compare a.topic b.topic).then (compare a.partition b.partition) = .eq := hequal
    rw [Ordering.then_eq_eq] at hequal
    have htopic := Std.LawfulEqOrd.eq_of_compare hequal.1
    have hpartition := Std.LawfulEqOrd.eq_of_compare hequal.2
    cases a; cases b; simp_all

end TopicPartition

/-- A partition of a topic as it concerns one group. -/
structure GroupPartition where
  group : String
  place : TopicPartition
deriving DecidableEq, Repr

namespace GroupPartition

instance : Ord GroupPartition :=
  ⟨compareLex (compareOn group) (compareOn place)⟩

instance : Std.TransOrd GroupPartition :=
  inferInstanceAs (Std.TransCmp (compareLex _ _))

instance : Std.LawfulEqOrd GroupPartition where
  eq_of_compare {a b} hequal := by
    have hequal : (compare a.group b.group).then (compare a.place b.place) = .eq := hequal
    rw [Ordering.then_eq_eq] at hequal
    have hgroup := Std.LawfulEqOrd.eq_of_compare hequal.1
    have hplace := Std.LawfulEqOrd.eq_of_compare hequal.2
    cases a; cases b; simp_all

end GroupPartition

end ConsumerGroups.Simulated
