import ConsumerGroups.Range.Share

/-! # The offset range of a topic

Every leader is asked for the oldest and the newest offset of the partitions in its share. All
leaders are asked at the same time, and what arrives is put back in the order in which the
cluster lists the partitions. If any leader fails, the failure that arrives first is the
answer and no offset is returned.
-/

namespace ConsumerGroups.Range

open Message

variable {σ : Type}

/-- The leaders of some partitions, asked in order from the given place on; the first one that
cannot be found ends the search. -/
def findLeaders (cluster : Cluster σ) (topic : String) :
    Nat → List Int32 → Errand σ (List (Led σ))
  | _, [] => pure []
  | index, partition :: rest => do
    let leader ← Errand.await (.partitionLeader partition) (cluster.leader topic partition)
    let others ← findLeaders cluster topic (index + 1) rest
    pure ({ index, partition, leader } :: others)

namespace Share

/-- Asks the broker of a share for one end of its logs. -/
def ask (topic : String) (share : Share σ) (boundary : Boundary) :
    StateM σ (Timed (Except Failure ListOffsets.Response)) := do
  let request := ListOffsets.request topic share.partitions boundary.timestamp
  let reply ← share.broker.listOffsets ListOffsets.version request
  pure (reply.mapError (.connection (.boundaryOffset boundary share.broker.id)))

/-- The offset of one partition at one end, read from the broker's response. -/
def offsetAt (topic : String) (share : Share σ) (boundary : Boundary)
    (response : ListOffsets.Response) (partition : Int32) : Except Failure Int64 :=
  inContext (.boundaryOffset boundary share.broker.id) (response.offsetOf topic partition)

/-- The range of one partition, with its place: the oldest offset is looked at first. -/
def row (topic : String) (share : Share σ) (oldest newest : ListOffsets.Response)
    (place : Nat × Int32) : Except Failure (Nat × Progress) := do
  let first ← share.offsetAt topic .oldest oldest place.2
  let last ← share.offsetAt topic .newest newest place.2
  pure (place.1, { partition := place.2, oldest := first, newest := last })

/-- The ranges of a whole share, up to the first partition that has none. -/
def rows (topic : String) (share : Share σ)
    (responses : ListOffsets.Response × ListOffsets.Response) :
    Except Failure (List (Nat × Progress)) :=
  share.places.mapM (share.row topic responses.1 responses.2)

/-- Asks a broker for both ends of its share, the oldest first. If that request fails at once
the other is never sent. -/
def survey (topic : String) (share : Share σ) :
    StateM σ (Timed (Except Failure (List (Nat × Progress)))) := do
  let oldest ← share.ask topic .oldest
  if oldest.failsAtOnce then
    pure (oldest.andThen fun _ => .ok [])
  else
    let newest ← share.ask topic .newest
    pure ((oldest.both newest).andThen (share.rows topic))

end Share

/-- A list of `size` records with the given rows at their places. -/
def placeRows (size : Nat) (rows : List (Nat × Progress)) : List Progress :=
  rows.foldl (fun table row => table.set row.1 row.2) (List.replicate size {})

/-- Asks all leaders and puts their answers in order. -/
def surveyShares (topic : String) (size : Nat) (shares : List (Share σ)) :
    Errand σ (List Progress) :=
  ExceptT.mk do
    let outcomes ← shares.mapM (·.survey topic)
    pure ((Timed.settle outcomes).map fun rows => placeRows size rows.flatten)

/-- The oldest and newest offset of every partition of a topic, in the order in which the
cluster lists them, without any mark. A topic without partitions contacts no broker. -/
def survey (cluster : Cluster σ) (topic : String) : Errand σ (List Progress) := do
  let partitions ← Errand.await .topicPartitions (cluster.partitions topic)
  if partitions.isEmpty then
    pure []
  else
    let leds ← findLeaders cluster topic 0 partitions
    surveyShares topic partitions.length (Share.divide leds)

end ConsumerGroups.Range
