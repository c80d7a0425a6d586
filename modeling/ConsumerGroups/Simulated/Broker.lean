import ConsumerGroups.Cluster
import ConsumerGroups.Simulated.Table
import ConsumerGroups.Simulated.Trouble

/-! # A simulated broker

A broker keeps the logs of the partitions it leads and the marks of the groups it coordinates.
Faults can be put into it: an outage that fails every request, codes with which it refuses
single partitions or fetches as a whole, partitions that its answers leave out, metadata that
it sends as missing, and commits that it applies without an answer.
-/

namespace ConsumerGroups.Simulated

open Message

/-- The code of a partition that a broker keeps no log of. -/
def unknownPartition : Int16 := 3

/-- What a simulated broker knows, and the faults put into it. -/
structure BrokerState where
  logs : Table TopicPartition PartitionLog := ∅
  marks : Table GroupPartition Mark := ∅
  commitCodes : Table TopicPartition Int16 := ∅
  fetchCodes : Table TopicPartition Int16 := ∅
  /-- The code of fetches as a whole, zero if there is none. -/
  fetchCode : Int16 := 0
  hidesMetadata : Bool := false
  mutesCommits : Bool := false
  omitted : Std.ExtTreeSet TopicPartition := ∅
  outage : Option String := none
  delay : Nat := 0
  /-- How many requests for offsets it was sent. -/
  listCalls : Nat := 0

namespace BrokerState

/-- An answer that an outage replaces by its trouble. -/
def unlessDown {α : Type} (state : BrokerState) (id : Int32) (answer : α) : Reply α :=
  match state.outage with
  | some reason => .error (Trouble.brokerDown id reason).cause
  | none => .ok answer

/-! ## Offsets -/

/-- What it answers about one partition, unless that is left out. -/
def listBlock? (state : BrokerState) (topic : String) (query : ListOffsets.Query) :
    Option ListOffsets.Block :=
  let place : TopicPartition := ⟨topic, query.partition⟩
  if place ∈ state.omitted then none
  else
    match state.logs[place]? with
    | some log =>
      some
        { partition := query.partition
          offsets := [log.offset (.ofTimestamp query.timestamp)] }
    | none => some { partition := query.partition, code := unknownPartition }

/-- The answer to a request for offsets; every topic asked about has its entry. -/
def listResponse (state : BrokerState) (request : ListOffsets.Request) : ListOffsets.Response :=
  { topics := request.topics.map fun topic =>
      ⟨topic.name, topic.blocks.filterMap (state.listBlock? topic.name)⟩ }

/-- Takes a request for offsets, and counts it even if it fails. -/
def listOffsets (id : Int32) (request : ListOffsets.Request) :
    StateM BrokerState (Timed (Reply ListOffsets.Response)) := do
  let state ← get
  set { state with listCalls := state.listCalls + 1 }
  pure ⟨state.delay, state.unlessDown id (state.listResponse request)⟩

/-! ## Marks -/

/-- The mark of a group, if it has committed one. -/
def mark? (state : BrokerState) (group : String) (place : TopicPartition) : Option Mark :=
  state.marks[GroupPartition.mk group place]?

/-- What it answers about the mark of one partition, unless that is left out. A group that has
committed nothing is no fault: its offset is `-1`. -/
def fetchBlock? (state : BrokerState) (group topic : String) (partition : Int32) :
    Option OffsetFetch.Block :=
  let place : TopicPartition := ⟨topic, partition⟩
  if place ∈ state.omitted then none
  else
    match state.fetchCodes[place]? with
    | some code => some { partition, offset := -1, code }
    | none =>
      let mark := (state.mark? group place).getD { offset := -1 }
      let metadata := if state.hidesMetadata then none else some mark.metadata
      some { partition, offset := mark.offset, metadata }

def fetchResponse (state : BrokerState) (request : OffsetFetch.Request) :
    OffsetFetch.Response :=
  if state.fetchCode ≠ 0 then { code := state.fetchCode }
  else
    { topics := (request.topics.getD []).map fun topic =>
        ⟨topic.name, topic.blocks.filterMap (state.fetchBlock? request.group topic.name)⟩ }

def fetch (id : Int32) (request : OffsetFetch.Request) :
    StateM BrokerState (Reply OffsetFetch.Response) := do
  let state ← get
  pure (state.unlessDown id (state.fetchResponse request))

/-! ## Commits -/

/-- Stores the mark of one entry, unless commits of its partition are refused. -/
def store (group topic : String) (state : BrokerState) (entry : OffsetCommit.Entry) :
    BrokerState :=
  let place : TopicPartition := ⟨topic, entry.partition⟩
  if place ∈ state.commitCodes then state
  else
    let mark : Mark := { offset := entry.offset, metadata := entry.metadata.getD "" }
    { state with marks := state.marks.insert ⟨group, place⟩ mark }

/-- Stores the marks of all entries of a request, in order. -/
def storeAll (state : BrokerState) (request : OffsetCommit.Request) : BrokerState :=
  request.topics.foldl
    (fun state topic => topic.blocks.foldl (store request.group topic.name) state) state

def commitResult (state : BrokerState) (topic : String) (entry : OffsetCommit.Entry) :
    OffsetCommit.Result :=
  { partition := entry.partition
    code := state.commitCodes.getD ⟨topic, entry.partition⟩ 0 }

def commitResponse (state : BrokerState) (request : OffsetCommit.Request) :
    OffsetCommit.Response :=
  if state.mutesCommits then { topics := [] }
  else
    { topics := request.topics.map fun topic =>
        ⟨topic.name, topic.blocks.map (state.commitResult topic.name)⟩ }

/-- Takes a commit. An outage keeps it from being applied; an answer that is emptied does
not. -/
def commit (id : Int32) (request : OffsetCommit.Request) :
    StateM BrokerState (Reply OffsetCommit.Response) := do
  let state ← get
  if state.outage.isNone then
    set (state.storeAll request)
  pure (state.unlessDown id (state.commitResponse request))

end BrokerState

end ConsumerGroups.Simulated
