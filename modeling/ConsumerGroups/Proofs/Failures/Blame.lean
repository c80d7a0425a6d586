import ConsumerGroups.Recording
import ConsumerGroups.Commitment
import ConsumerGroups.Ownership.Scan
import ConsumerGroups.Proofs.Results
import ConsumerGroups.Range.Survey

/-! # What exchanges are to blame for

A failure tells its reason and the context in which it arose. Which exchange with a collaborator
bears a failure out is told from the exchange alone: an answer that is an error, a response that
carries a code, or an answer that lacks what was expected of it. Of the flaws of one answer only
the first in the order of the request counts, so that an exchange has one reason to fail. What a
failure says can be held against the exchanges that were made, and the other way round.
-/

namespace ConsumerGroups

open Message Results

/-! ## What responses hold -/

namespace Message

/-- The block of a message that counts for a partition: the first one under the topic. -/
def FirstFor {β : Type} (partitionOf : β → Int32) (topic : String)
    (entries : List (TopicEntry β)) (partition : Int32) (block : β) : Prop :=
  partitionOf block = partition ∧ ∃ earlier later,
    blocksOf topic entries = earlier ++ block :: later ∧
      ∀ other ∈ earlier, partitionOf other ≠ partition

theorem blockOf?_eq_some_iff {β : Type} {partitionOf : β → Int32} {topic : String}
    {entries : List (TopicEntry β)} {partition : Int32} {block : β} :
    blockOf? partitionOf topic partition entries = some block ↔
      FirstFor partitionOf topic entries partition block := by
  unfold blockOf? FirstFor
  rw [List.find?_eq_some_iff_append]
  simp

theorem blockOf?_eq_none_iff {β : Type} {partitionOf : β → Int32} {topic : String}
    {entries : List (TopicEntry β)} {partition : Int32} :
    blockOf? partitionOf topic partition entries = none ↔
      ∀ block ∈ blocksOf topic entries, partitionOf block ≠ partition := by
  unfold blockOf?
  rw [List.find?_eq_none]
  simp

/-- A response holds an offset of a partition. -/
def ListOffsets.Response.HasOffset (response : ListOffsets.Response) (topic : String)
    (partition : Int32) : Prop :=
  ∃ block, FirstFor ListOffsets.Block.partition topic response.topics partition block ∧
    block.code = 0 ∧ block.offsets ≠ []

/-- A response holds the mark of a partition. -/
def OffsetFetch.Response.HasMark (response : OffsetFetch.Response) (topic : String)
    (partition : Int32) : Prop :=
  ∃ block, FirstFor OffsetFetch.Block.partition topic response.topics partition block ∧
    block.code = 0

theorem ListOffsets.Response.hasOffset_iff {response : ListOffsets.Response} {topic : String}
    {partition : Int32} :
    response.HasOffset topic partition ↔
      ∃ offset, response.offsetOf topic partition = .ok offset := by
  unfold HasOffset offsetOf
  simp only [← blockOf?_eq_some_iff]
  cases blockOf? ListOffsets.Block.partition topic partition response.topics with
  | none => simp
  | some block =>
      by_cases hcode : block.code = 0
      · rcases hoffsets : block.offsets with _ | ⟨offset, rest⟩ <;> simp [hcode, hoffsets]
      · simp [hcode]

theorem OffsetFetch.Response.hasMark_iff {response : OffsetFetch.Response} {topic : String}
    {partition : Int32} :
    response.HasMark topic partition ↔
      ∃ mark, Commitment.markOf response topic partition = .ok mark := by
  unfold HasMark Commitment.markOf OffsetFetch.Response.blockOf?
  simp only [← blockOf?_eq_some_iff]
  cases Message.blockOf? OffsetFetch.Block.partition topic partition response.topics with
  | none => simp
  | some block => by_cases hcode : block.code = 0 <;> simp [hcode]

/-- A request for offsets tells what is asked for. -/
theorem ListOffsets.request_inj {topic topic' : String} {asked asked' : List Int32}
    {timestamp timestamp' : Int64}
    (hsame : ListOffsets.request topic asked timestamp =
      ListOffsets.request topic' asked' timestamp') : topic = topic' ∧ asked = asked' := by
  simp only [ListOffsets.request, ListOffsets.Request.mk.injEq, List.cons.injEq,
    TopicEntry.mk.injEq, true_and, and_true] at hsame
  have hasked := congrArg (List.map ListOffsets.Query.partition) hsame.2
  simp only [List.map_map, Function.comp_def, List.map_id'] at hasked
  exact ⟨hsame.1, hasked⟩

theorem OffsetFetch.request_inj {group group' topic topic' : String} {asked asked' : List Int32}
    (hsame : OffsetFetch.request group topic asked = OffsetFetch.request group' topic' asked') :
    group = group' ∧ topic = topic' ∧ asked = asked' := by
  simpa [OffsetFetch.request] using hsame

theorem OffsetCommit.topic_of_request {group group' topic topic' : String}
    {batch batch' : List Progress}
    (hsame : OffsetCommit.request group topic batch = OffsetCommit.request group' topic' batch') :
    topic = topic' := by
  have hnames := congrArg (fun request : OffsetCommit.Request => request.topics.map (·.name)) hsame
  simpa [OffsetCommit.request] using hnames

end Message

namespace Exchange

/-- An exchange whose answer is an error. -/
def Errs : Exchange → Prop
  | connectCluster _ answer => ∃ cause, answer = .error cause
  | connectRegistry _ answer => ∃ cause, answer = .error cause
  | partitions _ answer => ∃ cause, answer = .error cause
  | leader _ _ answer => ∃ cause, answer = .error cause
  | listOffsets _ _ _ answer => ∃ cause, answer.value = .error cause
  | coordinator _ answer => ∃ cause, answer = .error cause
  | offsetFetch _ _ _ answer => ∃ cause, answer = .error cause
  | offsetCommit _ _ _ answer => ∃ cause, answer = .error cause
  | children _ answer => ∃ fault, answer = .error fault
  | read _ answer => ∃ fault, answer = .error fault
  | closeCluster => False
  | closeRegistry => False

/-- An exchange whose answer is looked into: a response to a request, or a listing. -/
def LookedInto : Exchange → Prop
  | listOffsets _ _ _ _ | offsetFetch _ _ _ _ | offsetCommit _ _ _ _ | children _ _ => True
  | _ => False

/-- An exchange with the registry, or an attempt to reach it. -/
def OnRegistry : Exchange → Prop
  | connectRegistry _ _ | children _ _ | read _ _ | closeRegistry => True
  | _ => False

/-- An exchange that broke in transport or in the registry, with what it was for and the cause. -/
inductive Faults (chroot : String) : Exchange → Context → Cause → Prop
  | connectCluster {settings : ClusterSettings} {cause : Cause} :
      Faults chroot (.connectCluster settings (.error cause)) .clusterConnection cause
  | connectRegistry {settings : RegistrySettings} {cause : Cause} :
      Faults chroot (.connectRegistry settings (.error cause)) .registryConnection cause
  | partitions {topic : String} {cause : Cause} :
      Faults chroot (.partitions topic (.error cause)) .topicPartitions cause
  | leader {topic : String} {partition : Int32} {cause : Cause} :
      Faults chroot (.leader topic partition (.error cause)) (.partitionLeader partition) cause
  | listOffsets {broker : Int32} {version : Int16} {topic : String} {asked : List Int32}
      {boundary : Boundary} {time : Nat} {cause : Cause} :
      Faults chroot (.listOffsets broker version
        (ListOffsets.request topic asked boundary.timestamp) ⟨time, .error cause⟩)
        (.boundaryOffset boundary broker) cause
  | coordinator {group : String} {cause : Cause} :
      Faults chroot (.coordinator group (.error cause)) .groupCoordinator cause
  | offsetFetch {id : Int32} {version : Int16} {request : OffsetFetch.Request} {cause : Cause} :
      Faults chroot (.offsetFetch id version request (.error cause)) .committedMarks cause
  | offsetCommit {id : Int32} {version : Int16} {request : OffsetCommit.Request} {cause : Cause} :
      Faults chroot (.offsetCommit id version request (.error cause)) .commitRequest cause
  | groups {cause : Cause} :
      Faults chroot (.children (NodePath.groups chroot) (.error (.broken cause))) .groupsListing
        cause
  | owners {group topic : String} {cause : Cause} :
      Faults chroot (.children (NodePath.owners chroot group topic) (.error (.broken cause)))
        .ownersListing cause
  | owner {group topic node : String} {partition : Int32} {cause : Cause}
      (hpartition : Text.readInt32? node = some partition) :
      Faults chroot (.read (NodePath.owner chroot group topic node) (.error (.broken cause)))
        (.ownerNode partition) cause

/-- An exchange whose response carries a code that counts. -/
inductive Refuses : Exchange → Context → Int16 → Prop
  /-- The first of the asked partitions without an offset has a block with a code. -/
  | block {broker : Int32} {version : Int16} {topic : String} {passed later : List Int32}
      {partition : Int32} {timestamp : Int64} {time : Nat} {response : ListOffsets.Response}
      {block : ListOffsets.Block} (hpassed : ∀ other ∈ passed, response.HasOffset topic other)
      (hblock : FirstFor ListOffsets.Block.partition topic response.topics partition block)
      (hcode : block.code ≠ 0) :
      Refuses (.listOffsets broker version
        (ListOffsets.request topic (passed ++ partition :: later) timestamp)
        ⟨time, .ok response⟩) (.blockRefused topic partition) block.code
  /-- A response for marks carries a code as a whole. -/
  | marks {id : Int32} {version : Int16} {group topic : String} {asked : List Int32}
      {response : OffsetFetch.Response} (hcode : response.code ≠ 0) :
      Refuses (.offsetFetch id version (OffsetFetch.request group topic asked) (.ok response))
        (.committedMarksOf group) response.code
  /-- The first of the asked partitions without a mark has a block with a code. -/
  | mark {id : Int32} {version : Int16} {group topic : String} {passed later : List Int32}
      {partition : Int32} {response : OffsetFetch.Response} {block : OffsetFetch.Block}
      (hwhole : response.code = 0) (hpassed : ∀ other ∈ passed, response.HasMark topic other)
      (hblock : FirstFor OffsetFetch.Block.partition topic response.topics partition block)
      (hcode : block.code ≠ 0) :
      Refuses (.offsetFetch id version
        (OffsetFetch.request group topic (passed ++ partition :: later)) (.ok response))
        (.markRefused partition) block.code
  /-- The first result with a code, of all those for the topic. -/
  | result {id : Int32} {version : Int16} {group topic : String} {batch : List Progress}
      {response : OffsetCommit.Response} {passed later : List OffsetCommit.Result}
      {result : OffsetCommit.Result}
      (hresults : blocksOf topic response.topics = passed ++ result :: later)
      (hpassed : ∀ other ∈ passed, other.code = 0) (hcode : result.code ≠ 0) :
      Refuses (.offsetCommit id version (OffsetCommit.request group topic batch) (.ok response))
        (.commitRefused result.partition) result.code

/-- An exchange whose answer lacks what was expected of it, or is not of the expected form. -/
inductive Lacks (chroot : String) : Exchange → Context → Prop
  /-- The first of the asked partitions without an offset has no block. -/
  | block {broker : Int32} {version : Int16} {topic : String} {passed later : List Int32}
      {partition : Int32} {timestamp : Int64} {time : Nat} {response : ListOffsets.Response}
      (hpassed : ∀ other ∈ passed, response.HasOffset topic other)
      (habsent : ∀ block ∈ blocksOf topic response.topics, block.partition ≠ partition) :
      Lacks chroot (.listOffsets broker version
        (ListOffsets.request topic (passed ++ partition :: later) timestamp)
        ⟨time, .ok response⟩) (.blockAbsent topic partition)
  /-- The first of the asked partitions without an offset has a block whose list is empty. -/
  | offset {broker : Int32} {version : Int16} {topic : String} {passed later : List Int32}
      {partition : Int32} {timestamp : Int64} {time : Nat} {response : ListOffsets.Response}
      {block : ListOffsets.Block} (hpassed : ∀ other ∈ passed, response.HasOffset topic other)
      (hblock : FirstFor ListOffsets.Block.partition topic response.topics partition block)
      (hcode : block.code = 0) (hoffsets : block.offsets = []) :
      Lacks chroot (.listOffsets broker version
        (ListOffsets.request topic (passed ++ partition :: later) timestamp)
        ⟨time, .ok response⟩) (.offsetAbsent topic partition)
  /-- The first of the asked partitions without a mark has no block. -/
  | mark {id : Int32} {version : Int16} {group topic : String} {passed later : List Int32}
      {partition : Int32} {response : OffsetFetch.Response} (hwhole : response.code = 0)
      (hpassed : ∀ other ∈ passed, response.HasMark topic other)
      (habsent : ∀ block ∈ blocksOf topic response.topics, block.partition ≠ partition) :
      Lacks chroot (.offsetFetch id version
        (OffsetFetch.request group topic (passed ++ partition :: later)) (.ok response))
        (.markAbsent partition)
  /-- A response to a commit has no result for the topic. -/
  | results {id : Int32} {version : Int16} {group topic : String} {batch : List Progress}
      {response : OffsetCommit.Response} (habsent : blocksOf topic response.topics = []) :
      Lacks chroot (.offsetCommit id version (OffsetCommit.request group topic batch)
        (.ok response)) (.commitUnanswered topic)
  /-- A listing of owners has a name that is no partition. -/
  | name {group topic : String} {passed later : List String} {node : String}
      (hpassed : ∀ other ∈ passed, Text.readInt32? other ≠ none)
      (hname : Text.readInt32? node = none) :
      Lacks chroot (.children (NodePath.owners chroot group topic) (.ok (passed ++ node :: later)))
        (.ownerNodeName node)
  /-- There is no node for the groups. -/
  | groups : Lacks chroot (.children (NodePath.groups chroot) (.error .absent)) .nodeAbsent
  /-- There is no node for an owner. -/
  | owner {group topic node : String} :
      Lacks chroot (.read (NodePath.owner chroot group topic node) (.error .absent)) .nodeAbsent

/-- An exchange that finds no node for the groups, or for an owner that was listed. -/
inductive LacksNode (chroot : String) : Exchange → Prop
  | groups : LacksNode chroot (.children (NodePath.groups chroot) (.error .absent))
  | owner {path : String} : LacksNode chroot (.read path (.error .absent))

/-- A listing of the owners of a topic in a group that finds no node. -/
inductive Misses (chroot : String) : Exchange → Context → Prop
  | owners {group topic : String} :
      Misses chroot (.children (NodePath.owners chroot group topic) (.error .absent))
        .subscriptionAbsent

/-- An exchange that bears out a failure with the given reason in the given context. -/
def Explains (chroot : String) (exchange : Exchange) (context : Context) : Reason → Prop
  | .connection cause => exchange.Faults chroot context cause
  | .protocol => exchange.Lacks chroot context
  | .remote code => exchange.Refuses context code
  | .notFound => exchange.Misses chroot context

/-- An exchange that a call cannot go on from: its answer is an error, or explains a failure. -/
def Spoiled (chroot : String) (exchange : Exchange) : Prop :=
  exchange.Errs ∨ ∃ context reason, exchange.Explains chroot context reason

/-- An exchange of a log may end a call before another one does, though the other was made too.
All other exchanges are answered, and looked at, before the next is made. -/
inductive Forestalls (chroot : String) (log : List Exchange) : Exchange → Exchange → Prop
  /-- Of two requests for offsets one is answered no later than the other. -/
  | sooner {first second : Int32} {version version' : Int16}
      {request request' : ListOffsets.Request} {sooner later : Timed (Reply ListOffsets.Response)}
      (htime : sooner.time ≤ later.time) :
      Forestalls chroot log (.listOffsets first version request sooner)
        (.listOffsets second version' request' later)
  /-- A response for offsets is only looked at when the same broker has answered for the other end
  of the logs too. -/
  | paired {first second : Int32} {version version' : Int16} {request : ListOffsets.Request}
      {topic : String} {asked : List Int32} {timestamp timestamp' : Int64} {time : Nat}
      {response : ListOffsets.Response} {sooner last : Timed (Reply ListOffsets.Response)}
      (hlast : .listOffsets second version' (ListOffsets.request topic asked timestamp') last ∈ log)
      (htime : sooner.time ≤ last.time) :
      Forestalls chroot log (.listOffsets first version request sooner)
        (.listOffsets second version' (ListOffsets.request topic asked timestamp)
          ⟨time, .ok response⟩)
  /-- A node cannot be read that is listed before any name that is no partition. -/
  | read {group topic node : String} {passed later : List String} {fault : RegistryFault}
      (hpassed : ∀ other ∈ passed, Text.readInt32? other ≠ none)
      (hname : Text.readInt32? node ≠ none) :
      Forestalls chroot log (.read (NodePath.owner chroot group topic node) (.error fault))
        (.children (NodePath.owners chroot group topic) (.ok (passed ++ node :: later)))

/-- What ends a call in a log does so in a longer one. -/
theorem Forestalls.mono {chroot : String} {log more : List Exchange} {ender other : Exchange}
    (hforestalls : ender.Forestalls chroot log other) (hmore : log ⊆ more) :
    ender.Forestalls chroot more other := by
  cases hforestalls with
  | sooner htime => exact .sooner htime
  | paired hlast htime => exact .paired (hmore hlast) htime
  | read hpassed hname => exact .read hpassed hname

variable {chroot : String} {exchange other : Exchange} {context : Context} {reason : Reason}

/-- An answer that is not looked into can only be to blame as an error. -/
theorem Spoiled.errs (hspoiled : exchange.Spoiled chroot) (hplain : ¬exchange.LookedInto) :
    exchange.Errs := by
  rcases hspoiled with herrs | ⟨context, reason, hexplains⟩
  · exact herrs
  · cases reason with
    | connection cause => cases hexplains <;> exact ⟨_, rfl⟩
    | protocol =>
        cases hexplains with
        | owner => exact ⟨_, rfl⟩
        | _ => exact absurd trivial hplain
    | remote code => cases hexplains <;> exact absurd trivial hplain
    | notFound =>
        cases hexplains
        exact absurd trivial hplain

/-! ## Contexts tell reasons -/

/-- In a context in which exchanges break, a failure can only be one of the connection. -/
theorem Faults.reason_eq {cause : Cause} (hfaults : exchange.Faults chroot context cause)
    (hexplains : other.Explains chroot context reason) : ∃ cause, reason = .connection cause := by
  cases reason with
  | connection cause => exact ⟨cause, rfl⟩
  | _ => cases hfaults <;> cases hexplains

/-- In a context in which answers lack something, a failure can only be one of the protocol. -/
theorem Lacks.reason_eq (hlacks : exchange.Lacks chroot context)
    (hexplains : other.Explains chroot context reason) : reason = .protocol := by
  cases reason with
  | protocol => rfl
  | _ => cases hlacks <;> cases hexplains

/-- The node of the groups is not the one of any owners. -/
theorem groups_ne_owners (chroot group topic : String) :
    NodePath.groups chroot ≠ NodePath.owners chroot group topic := by
  intro hsame
  have hlength := congrArg (fun path : String => path.toList.length) hsame
  simp [NodePath.owners, NodePath.group, String.toList_append] at hlength

/-- A listing of groups that finds their node is not to blame for anything. -/
theorem not_spoiled_groups (nodes : List String) :
    ¬(Exchange.children (NodePath.groups chroot) (.ok nodes)).Spoiled chroot := by
  have hpath := groups_ne_owners chroot
  generalize NodePath.groups chroot = path at hpath
  rintro (⟨fault, ⟨⟩⟩ | ⟨context, reason, hexplains⟩)
  cases reason <;> cases hexplains
  exact hpath _ _ rfl

/-- Only a listing of owners misses a subscription. -/
theorem Misses.eq (hmisses : exchange.Misses chroot context) :
    context = .subscriptionAbsent ∧ ∃ group topic,
      exchange = .children (NodePath.owners chroot group topic) (.error .absent) := by
  cases hmisses
  exact ⟨rfl, _, _, rfl⟩

/-- Nothing ends a call before a listing that finds no node does. -/
theorem not_forestalled_absent {path : String} {log : List Exchange} :
    ¬other.Forestalls chroot log (.children path (.error .absent)) := by
  intro hother
  cases hother

namespace LacksNode

/-- Nothing ends a call before a node that is not there does. -/
theorem not_forestalled (hlacks : exchange.LacksNode chroot) {log : List Exchange} :
    ¬other.Forestalls chroot log exchange := by
  cases hlacks with
  | groups => exact not_forestalled_absent
  | owner => exact nofun

theorem errs (hlacks : exchange.LacksNode chroot) : exchange.Errs := by
  cases hlacks <;> exact ⟨_, rfl⟩

theorem not_misses (hlacks : exchange.LacksNode chroot) : ¬exchange.Misses chroot context := by
  intro hmisses
  obtain ⟨-, group, topic, rfl⟩ := hmisses.eq
  generalize howners : NodePath.owners chroot group topic = path at hlacks
  cases hlacks
  exact groups_ne_owners chroot group topic howners.symm

/-- A node that is not there can only make the protocol fail. -/
theorem reason_eq (hlacks : exchange.LacksNode chroot)
    (hexplains : exchange.Explains chroot context reason) : reason = .protocol := by
  cases reason with
  | protocol => rfl
  | notFound => exact absurd hexplains hlacks.not_misses
  | connection cause =>
      cases hlacks with
      | groups =>
          generalize NodePath.groups chroot = path at hexplains
          cases hexplains
      | owner => cases hexplains
  | remote code => cases hlacks <;> cases hexplains

end LacksNode

/-- Owners that are not found can only make a subscription missing. -/
theorem Misses.reason_eq {group topic : String} (hexplains : Explains chroot
      (.children (NodePath.owners chroot group topic) (.error .absent)) context reason) :
    reason = .notFound := by
  have hpath := groups_ne_owners chroot group topic
  generalize NodePath.owners chroot group topic = path at hexplains hpath
  cases reason with
  | notFound => rfl
  | protocol =>
      cases hexplains
      exact absurd rfl hpath
  | _ => cases hexplains

/-! ## What is read from responses -/

section Readers

variable {failure : Failure}

/-- An exchange whose reader succeeds, if the reader fails exactly as the exchange explains, is not
to blame for anything. -/
theorem not_spoiled_of_read {α : Type} {read : Except Failure α} {value : α}
    (hfine : ¬exchange.Errs) (hread : ∀ failure, read = .error failure ↔ failure.outer = [] ∧
      exchange.Explains chroot failure.context failure.reason) (hvalue : read = .ok value) :
    ¬exchange.Spoiled chroot := by
  rintro (herrs | ⟨context, reason, hexplains⟩)
  · exact hfine herrs
  · have hfails := (hread ⟨[], context, reason⟩).mpr ⟨rfl, hexplains⟩
    cases hvalue.symm.trans hfails

/-- The reader of a response for offsets fails as the response explains. -/
theorem offsets_eq_error_iff {broker : Int32} {version : Int16} {topic : String}
    {asked : List Int32} {timestamp : Int64} {time : Nat} {response : ListOffsets.Response} :
    asked.mapM (response.offsetOf topic) = .error failure ↔ failure.outer = [] ∧
      Explains chroot (.listOffsets broker version (ListOffsets.request topic asked timestamp)
        ⟨time, .ok response⟩) failure.context failure.reason := by
  simp only [mapM_eq_error_iff, ← ListOffsets.Response.hasOffset_iff]
  obtain ⟨outer, context, reason⟩ := failure
  constructor
  · rintro ⟨passed, partition, later, rfl, hpassed, hfailure⟩
    unfold ListOffsets.Response.offsetOf at hfailure
    split at hfailure
    · cases hfailure
      exact ⟨rfl, Lacks.block hpassed (blockOf?_eq_none_iff.mp ‹_›)⟩
    · have hblock := blockOf?_eq_some_iff.mp ‹_›
      split at hfailure
      · cases hfailure
        exact ⟨rfl, Refuses.block hpassed hblock ‹_›⟩
      · split at hfailure
        · cases hfailure
          exact ⟨rfl, Lacks.offset hpassed hblock (not_not.mp ‹_›) ‹_›⟩
        · cases hfailure
  · rintro ⟨rfl, hexplains⟩
    generalize hrequest : ListOffsets.request topic asked timestamp = request at hexplains
    cases reason with
    | connection | notFound => cases hexplains
    | protocol =>
        cases hexplains with
        | block hpassed habsent =>
            obtain ⟨rfl, rfl⟩ := ListOffsets.request_inj hrequest
            refine ⟨_, _, _, rfl, hpassed, ?_⟩
            simp [ListOffsets.Response.offsetOf, blockOf?_eq_none_iff.mpr habsent, Failure.protocol]
        | offset hpassed hblock hcode hoffsets =>
            obtain ⟨rfl, rfl⟩ := ListOffsets.request_inj hrequest
            refine ⟨_, _, _, rfl, hpassed, ?_⟩
            simp [ListOffsets.Response.offsetOf, blockOf?_eq_some_iff.mpr hblock, hcode, hoffsets,
              Failure.protocol]
    | remote code =>
        cases hexplains with
        | block hpassed hblock hcode =>
            obtain ⟨rfl, rfl⟩ := ListOffsets.request_inj hrequest
            refine ⟨_, _, _, rfl, hpassed, ?_⟩
            simp [ListOffsets.Response.offsetOf, blockOf?_eq_some_iff.mpr hblock, hcode,
              Failure.remote]

/-- The reader of a response for marks fails as the response explains. -/
theorem marksOf_eq_error_iff {id : Int32} {version : Int16} {group topic : String}
    {asked : List Int32} {response : OffsetFetch.Response} :
    Commitment.marksOf response group topic asked = .error failure ↔ failure.outer = [] ∧
      Explains chroot (.offsetFetch id version (OffsetFetch.request group topic asked)
        (.ok response)) failure.context failure.reason := by
  obtain ⟨outer, context, reason⟩ := failure
  unfold Commitment.marksOf
  constructor
  · intro hfailure
    split at hfailure
    · cases hfailure
      exact ⟨rfl, Refuses.marks ‹_›⟩
    · have hwhole : response.code = 0 := not_not.mp ‹_›
      obtain ⟨passed, partition, later, rfl, hpassed, hmark⟩ := mapM_eq_error_iff.mp hfailure
      simp only [← OffsetFetch.Response.hasMark_iff] at hpassed
      unfold Commitment.markOf at hmark
      split at hmark
      · cases hmark
        exact ⟨rfl, Lacks.mark hwhole hpassed (blockOf?_eq_none_iff.mp ‹_›)⟩
      · have hblock := blockOf?_eq_some_iff.mp ‹_›
        split at hmark <;> cases hmark
        exact ⟨rfl, Refuses.mark hwhole hpassed hblock ‹_›⟩
  · rintro ⟨rfl, hexplains⟩
    generalize hrequest : OffsetFetch.request group topic asked = request at hexplains
    cases reason with
    | connection | notFound => cases hexplains
    | protocol =>
        cases hexplains with
        | mark hwhole hpassed habsent =>
            obtain ⟨rfl, rfl, rfl⟩ := OffsetFetch.request_inj hrequest
            simp only [OffsetFetch.Response.hasMark_iff] at hpassed
            rw [if_neg (not_not.mpr hwhole), mapM_eq_error_iff]
            refine ⟨_, _, _, rfl, hpassed, ?_⟩
            simp [Commitment.markOf, OffsetFetch.Response.blockOf?,
              blockOf?_eq_none_iff.mpr habsent, Failure.protocol]
    | remote code =>
        cases hexplains with
        | marks hcode =>
            obtain ⟨rfl, rfl, rfl⟩ := OffsetFetch.request_inj hrequest
            rw [if_pos hcode]
            rfl
        | mark hwhole hpassed hblock hcode =>
            obtain ⟨rfl, rfl, rfl⟩ := OffsetFetch.request_inj hrequest
            simp only [OffsetFetch.Response.hasMark_iff] at hpassed
            rw [if_neg (not_not.mpr hwhole), mapM_eq_error_iff]
            refine ⟨_, _, _, rfl, hpassed, ?_⟩
            simp [Commitment.markOf, OffsetFetch.Response.blockOf?, blockOf?_eq_some_iff.mpr hblock,
              hcode, Failure.remote]

/-- The reader of a response to a commit fails as the response explains. -/
theorem acknowledged_eq_error_iff {id : Int32} {version : Int16} {group topic : String}
    {batch : List Progress} {response : OffsetCommit.Response} :
    Commitment.acknowledged response topic = .error failure ↔ failure.outer = [] ∧
      Explains chroot (.offsetCommit id version (OffsetCommit.request group topic batch)
        (.ok response)) failure.context failure.reason := by
  obtain ⟨outer, context, reason⟩ := failure
  unfold Commitment.acknowledged OffsetCommit.Response.resultsOf
  dsimp only
  constructor
  · intro hfailure
    split at hfailure
    · rename_i result hresult
      cases hfailure
      obtain ⟨hcode, passed, later, hresults, hpassed⟩ := List.find?_eq_some_iff_append.mp hresult
      exact ⟨rfl, Refuses.result hresults (by simpa using hpassed) (by simpa using hcode)⟩
    · split at hfailure <;> cases hfailure
      exact ⟨rfl, Lacks.results (List.isEmpty_iff.mp ‹_›)⟩
  · rintro ⟨rfl, hexplains⟩
    generalize hrequest : OffsetCommit.request group topic batch = request at hexplains
    cases reason with
    | connection | notFound => cases hexplains
    | protocol =>
        cases hexplains with
        | results habsent =>
            obtain rfl := OffsetCommit.topic_of_request hrequest
            simp [habsent, Failure.protocol]
    | remote code =>
        cases hexplains with
        | @result _ _ _ _ _ _ passed later result hresults hpassed hcode =>
            obtain rfl := OffsetCommit.topic_of_request hrequest
            have hfirst : (blocksOf topic response.topics).find? (·.code ≠ 0) = some result := by
              rw [List.find?_eq_some_iff_append]
              exact ⟨by simpa using hcode, passed, later, hresults, by simpa using hpassed⟩
            simp only [hfirst, Failure.remote]

end Readers

/-! ## One reason for an exchange -/

section Broken

variable {cause : Cause}

theorem reason_of_broken_listOffsets {broker : Int32} {version : Int16}
    {request : ListOffsets.Request} {time : Nat}
    (hexplains : Explains chroot (.listOffsets broker version request ⟨time, .error cause⟩) context
      reason) : reason = .connection cause := by
  cases reason <;> cases hexplains
  rfl

theorem reason_of_broken_children {path : String}
    (hexplains : Explains chroot (.children path (.error (.broken cause))) context reason) :
    reason = .connection cause := by
  cases reason <;> cases hexplains <;> rfl

theorem reason_of_broken_read {path : String}
    (hexplains : Explains chroot (.read path (.error (.broken cause))) context reason) :
    reason = .connection cause := by
  cases reason <;> cases hexplains
  rfl

/-- An exchange that broke has no other reason to fail. -/
theorem Faults.reason_unique {context' : Context} (hfaults : exchange.Faults chroot context cause)
    (hexplains : exchange.Explains chroot context' reason) : reason = .connection cause := by
  cases hfaults with
  | listOffsets => exact reason_of_broken_listOffsets hexplains
  | groups | owners => exact reason_of_broken_children hexplains
  | owner => exact reason_of_broken_read hexplains
  | _ =>
      cases reason <;> cases hexplains
      rfl

end Broken

/-- An exchange that carries a code has no other reason to fail. -/
theorem Refuses.reason_unique {code : Int16} (hrefuses : exchange.Refuses context code)
    {context' : Context} (hexplains : exchange.Explains chroot context' reason) :
    reason = .remote code := by
  have hsame : exchange.Explains chroot context (.remote code) := hrefuses
  -- Both reasons are what the reader of the response fails with.
  have hread {α : Type} {result : Except Failure α}
      (hfirst : result = .error ⟨[], context, .remote code⟩)
      (hsecond : result = .error ⟨[], context', reason⟩) : reason = .remote code := by
    cases hfirst.symm.trans hsecond
    rfl
  cases hrefuses with
  | block =>
      exact hread (offsets_eq_error_iff.mpr ⟨rfl, hsame⟩)
        (offsets_eq_error_iff.mpr ⟨rfl, hexplains⟩)
  | marks | mark =>
      exact hread (marksOf_eq_error_iff.mpr ⟨rfl, hsame⟩)
        (marksOf_eq_error_iff.mpr ⟨rfl, hexplains⟩)
  | result =>
      exact hread (acknowledged_eq_error_iff.mpr ⟨rfl, hsame⟩)
        (acknowledged_eq_error_iff.mpr ⟨rfl, hexplains⟩)

/-- An exchange has one reason to fail. -/
theorem Explains.reason_unique {context' : Context} {reason' : Reason}
    (hexplains : exchange.Explains chroot context reason)
    (hother : exchange.Explains chroot context' reason') : reason = reason' := by
  cases reason with
  | connection cause => exact (Faults.reason_unique hexplains hother).symm
  | remote code => exact (Refuses.reason_unique hexplains hother).symm
  | notFound =>
      obtain ⟨-, group, topic, rfl⟩ := Misses.eq hexplains
      exact (Misses.reason_eq hother).symm
  | protocol =>
      cases reason' with
      | protocol => rfl
      | connection cause => exact Faults.reason_unique hother hexplains
      | remote code => exact Refuses.reason_unique hother hexplains
      | notFound =>
          obtain ⟨-, group, topic, rfl⟩ := Misses.eq hother
          exact Misses.reason_eq hexplains

end Exchange

end ConsumerGroups
