import ConsumerGroups.Cluster
import ConsumerGroups.Progress.Basic

/-! # Shares of the leaders

The partitions of a topic are divided among the brokers that lead them. A share holds the
partitions of one broker identifier with their places in the topic's list; shares come in the
order in which their identifiers are first seen, and the broker object first seen for an
identifier is the one that is asked.
-/

namespace ConsumerGroups.Range

/-- A partition with its place in the topic's list and its leader. -/
structure Led (σ : Type) where
  index : Nat
  partition : Int32
  leader : Broker σ

/-- The partitions that one broker is asked about. -/
structure Share (σ : Type) where
  broker : Broker σ
  places : List (Nat × Int32)

namespace Share

variable {σ : Type}

/-- Divides partitions among their leaders: the share of the first leader comes first and takes
all that name the same broker, then the others are divided. -/
def divide : List (Led σ) → List (Share σ)
  | [] => []
  | first :: rest =>
    let same (led : Led σ) : Bool := led.leader.id = first.leader.id
    { broker := first.leader
      places := (first :: rest.filter same).map fun led => (led.index, led.partition) } ::
      divide (rest.filter fun led => !same led)
termination_by leds => leds.length
decreasing_by
  rw [List.length_unattach, List.length_cons]
  exact Nat.lt_succ_of_le (Nat.le_trans (List.length_filter_le _ _) (by simp))

def partitions (share : Share σ) : List Int32 :=
  share.places.map (·.2)

end Share

end ConsumerGroups.Range
