import ConsumerGroups.Proofs.Simulated.Queries

/-! # What a survey of the simulated world comes to

The leader of a partition serves it if the leader is up, does not leave the partition out and
keeps a log of it. A survey succeeds exactly if every partition of its topic is served, and lists
the ends of these logs.
-/

namespace ConsumerGroups.Simulated

open Message Range Results

/-- Where partitions were asked for, the block found for one of them is the answer about it; however
often it was asked for, its answers are the same. -/
theorem blockOf?_answers {β : Type} {partitionOf : β → Int32} {answer : Int32 → Option β}
    (hanswer : ∀ partition block, answer partition = some block → partitionOf block = partition)
    (topic : String) (asked : List Int32) (partition : Int32) :
    blockOf? partitionOf topic partition [⟨topic, asked.filterMap answer⟩] =
      if partition ∈ asked then answer partition else none := by
  have hblocks : blocksOf topic [⟨topic, asked.filterMap answer⟩] = asked.filterMap answer := by
    simp [blocksOf]
  rw [blockOf?, hblocks]
  clear hblocks
  induction asked with
  | nil => rfl
  | cons first rest ih =>
      rw [List.filterMap_cons]
      cases hfirst : answer first with
      | none =>
          by_cases hsame : partition = first
          · subst hsame
            simpa [hfirst] using ih
          · simpa [hsame] using ih
      | some block =>
          have hpartition := hanswer first block hfirst
          by_cases hsame : partition = first
          · subst hsame
            simp [hpartition, hfirst]
          · simp only [List.find?_cons, hpartition, Ne.symm hsame, decide_false, ih, List.mem_cons,
              hsame, false_or]

/-! ## Brokers -/

namespace BrokerState

/-- A broker that answers for a partition with the ends of the given log. -/
structure Serves (broker : BrokerState) (place : TopicPartition) (log : PartitionLog) : Prop where
  up : broker.outage = none
  listed : place ∉ broker.omitted
  kept : broker.logs[place]? = some log

theorem Serves.of_quiet {first second : BrokerState} (hquiet : first.quiet = second.quiet)
    {place : TopicPartition} {log : PartitionLog} (hserves : first.Serves place log) :
    second.Serves place log where
  up := (congr_quiet (f := BrokerState.outage) (fun _ => rfl) hquiet).symm.trans hserves.up
  listed := congr_quiet (f := BrokerState.omitted) (fun _ => rfl) hquiet ▸ hserves.listed
  kept := congr_quiet (f := BrokerState.logs) (fun _ => rfl) hquiet ▸ hserves.kept

theorem unlessDown_eq_ok {α : Type} {state : BrokerState} {id : Int32} {answer value : α} :
    state.unlessDown id answer = .ok value ↔ state.outage = none ∧ answer = value := by
  unfold unlessDown
  cases state.outage <;> simp

theorem partition_of_listBlock? {state : BrokerState} {topic : String} {query : ListOffsets.Query}
    {block : ListOffsets.Block} (hblock : state.listBlock? topic query = some block) :
    block.partition = query.partition := by
  unfold listBlock? at hblock
  dsimp only at hblock
  split at hblock
  · cases hblock
  · split at hblock <;> cases hblock <;> rfl

theorem blockOf?_listResponse (state : BrokerState) (topic : String) (asked : List Int32)
    (timestamp : Int64) (partition : Int32) :
    blockOf? ListOffsets.Block.partition topic partition
        (state.listResponse (ListOffsets.request topic asked timestamp)).topics =
      if partition ∈ asked then state.listBlock? topic { partition, timestamp } else none := by
  simp only [listResponse, ListOffsets.request, List.map_cons, List.map_nil, List.filterMap_map]
  exact blockOf?_answers (fun _ _ hanswer => partition_of_listBlock? hanswer) topic asked partition

theorem ofTimestamp_timestamp (boundary : Boundary) :
    Boundary.ofTimestamp boundary.timestamp = boundary := by
  cases boundary <;> rfl

/-- The offset that is read for a partition is an end of its log. -/
theorem offsetOf_listResponse {state : BrokerState} {topic : String} {asked : List Int32}
    {boundary : Boundary} {partition : Int32} (hasked : partition ∈ asked) {offset : Int64} :
    (state.listResponse (ListOffsets.request topic asked boundary.timestamp)).offsetOf
        topic partition = .ok offset ↔
      TopicPartition.mk topic partition ∉ state.omitted ∧
        ∃ log, state.logs[TopicPartition.mk topic partition]? = some log ∧
          log.offset boundary = offset := by
  unfold ListOffsets.Response.offsetOf
  rw [blockOf?_listResponse, if_pos hasked, listBlock?]
  dsimp only
  by_cases homitted : TopicPartition.mk topic partition ∈ state.omitted
  · simp [homitted]
  · cases hlog : state.logs[TopicPartition.mk topic partition]? with
    | none => simp [homitted, unknownPartition]
    | some log => simp [homitted, ofTimestamp_timestamp]

end BrokerState

namespace World

variable {world : World} {id : Int32} {broker : BrokerState}

/-- A broker that is asked counts the request, and is otherwise as before. -/
theorem listOffsets_run (hbroker : world.cluster.brokers[id]? = some broker) (version : Int16)
    (request : ListOffsets.Request) :
    ((World.broker id).listOffsets version request).run world =
      (⟨broker.delay, broker.unlessDown id (broker.listResponse request)⟩,
        { world with
          cluster :=
            { world.cluster with
              brokers := world.cluster.brokers.insert id
                { broker with listCalls := broker.listCalls + 1 } } }) := by
  rw [World.broker, bind_run, onCluster_run, onBroker?_run, hbroker]
  rfl

theorem listOffsets_again (hbroker : world.cluster.brokers[id]? = some broker) (version : Int16)
    (request again : ListOffsets.Request) :
    (((World.broker id).listOffsets version again).run
        (((World.broker id).listOffsets version request).run world).2).1 =
      ⟨broker.delay, broker.unlessDown id (broker.listResponse again)⟩ := by
  rw [listOffsets_run hbroker]
  rw [@listOffsets_run _ _ { broker with listCalls := broker.listCalls + 1 } (by simp)]
  rfl

/-- A record is read from the answers of a broker exactly if the broker serves its partition. -/
theorem readFrom_askEnds (hbroker : world.cluster.brokers[id]? = some broker) {topic : String}
    {asked : List Int32} {partition : Int32} (hasked : partition ∈ asked) {record : Progress} :
    ReadFrom topic partition ((askEnds topic asked (World.broker id)).run world).1 record ↔
      ∃ log, broker.Serves ⟨topic, partition⟩ log ∧
        record = { partition, oldest := log.oldest, newest := log.newest } := by
  constructor
  · rintro ⟨sooner, later, oldest, newest, first, last, hreplies, hfirst, hlast, rfl⟩
    obtain ⟨holdest, hnewest⟩ := askEnds_eq_both hreplies
    rw [listOffsets_run hbroker] at holdest
    rw [listOffsets_again hbroker] at hnewest
    obtain ⟨hup, rfl⟩ := BrokerState.unlessDown_eq_ok.mp (Timed.mk.inj holdest).2
    obtain ⟨-, rfl⟩ := BrokerState.unlessDown_eq_ok.mp (Timed.mk.inj hnewest).2
    obtain ⟨hlisted, log, hlog, rfl⟩ := (BrokerState.offsetOf_listResponse hasked).mp hfirst
    obtain ⟨-, same, hsame, rfl⟩ := (BrokerState.offsetOf_listResponse hasked).mp hlast
    obtain rfl : same = log := Option.some.inj (hsame.symm.trans hlog)
    exact ⟨same, ⟨hup, hlisted, hlog⟩, rfl⟩
  · rintro ⟨log, hserves, rfl⟩
    have hanswer (response : ListOffsets.Response) : broker.unlessDown id response = .ok response :=
      BrokerState.unlessDown_eq_ok.mpr ⟨hserves.up, rfl⟩
    have hoffset (boundary : Boundary) :
        (broker.listResponse (ListOffsets.request topic asked boundary.timestamp)).offsetOf
          topic partition = .ok (log.offset boundary) :=
      (BrokerState.offsetOf_listResponse hasked).mpr ⟨hserves.listed, log, hserves.kept, rfl⟩
    have holdest := listOffsets_run hbroker ListOffsets.version
      (ListOffsets.request topic asked Boundary.oldest.timestamp)
    have hnewest := listOffsets_again hbroker ListOffsets.version
      (ListOffsets.request topic asked Boundary.oldest.timestamp)
      (ListOffsets.request topic asked Boundary.newest.timestamp)
    rw [hanswer] at holdest hnewest
    rw [holdest] at hnewest
    have hreplies := askEnds_of_response holdest
    rw [hnewest] at hreplies
    exact ⟨_, _, _, _, _, _, hreplies, hoffset .oldest, hoffset .newest, rfl⟩

end World

/-! ## Leaders -/

namespace ClusterState

/-- The log that the leader of a partition keeps of it. -/
def logOf? (cluster : ClusterState) (place : TopicPartition) : Option PartitionLog :=
  cluster.leaders[place]?.bind fun id => cluster.brokers[id]?.bind fun broker => broker.logs[place]?

/-- A cluster in which the leader of a partition answers for it with the ends of the given log. -/
def Serves (cluster : ClusterState) (place : TopicPartition) (log : PartitionLog) : Prop :=
  ∃ id broker, cluster.leaders[place]? = some id ∧ cluster.brokers[id]? = some broker ∧
    broker.Serves place log

/-- A record that holds the ends of the log that a partition is served with, and no mark. -/
def RangeOf (cluster : ClusterState) (topic : String) (partition : Int32) (record : Progress) :
    Prop :=
  ∃ log, cluster.Serves ⟨topic, partition⟩ log ∧
    record = { partition, oldest := log.oldest, newest := log.newest }

theorem Serves.logOf? {cluster : ClusterState} {place : TopicPartition} {log : PartitionLog}
    (hserves : cluster.Serves place log) : cluster.logOf? place = some log := by
  obtain ⟨id, broker, hid, hbroker, hserves⟩ := hserves
  rw [ClusterState.logOf?, hid, Option.bind_some, hbroker, Option.bind_some, hserves.kept]

/-- A leader is found exactly if the cluster names it and has it. -/
theorem leader_eq_ok {cluster : ClusterState} {place : TopicPartition} {id : Int32} :
    cluster.leader place = .ok id ↔ cluster.leaders[place]? = some id ∧ id ∈ cluster.brokers := by
  unfold leader checkBroker
  cases cluster.leaders[place]? with
  | none => simp
  | some named =>
      by_cases hmem : named ∈ cluster.brokers
      · simp only [hmem, if_true, Except.ok.injEq, Option.some.injEq]
        exact ⟨fun hsame => ⟨hsame, hsame ▸ hmem⟩, And.left⟩
      · simp only [hmem, if_false, reduceCtorEq, Option.some.injEq, false_iff, not_and]
        rintro rfl
        exact hmem

theorem Serves.leader {cluster : ClusterState} {place : TopicPartition} {log : PartitionLog}
    (hserves : cluster.Serves place log) : ∃ id, cluster.leader place = .ok id := by
  obtain ⟨id, broker, hid, hbroker, -⟩ := hserves
  refine ⟨id, leader_eq_ok.mpr ⟨hid, ?_⟩⟩
  rw [Std.ExtTreeMap.mem_iff_isSome_getElem?, hbroker]
  rfl

/-- The partitions of a topic have ranges exactly if all of them are served. -/
theorem exists_ranges_iff {cluster : ClusterState} {topic : String} {partitions : List Int32} :
    (∃ records, List.Forall₂ (cluster.RangeOf topic) partitions records) ↔
      ∀ partition ∈ partitions, ∃ log, cluster.Serves ⟨topic, partition⟩ log := by
  constructor
  · rintro ⟨records, hranges⟩ partition hpartition
    obtain ⟨place, hplace⟩ := List.mem_iff_getElem?.mp hpartition
    obtain ⟨_, -, log, hserves, -⟩ := (forall₂_iff_getElem?.mp hranges).2 place partition hplace
    exact ⟨log, hserves⟩
  · intro hserved
    refine exists_related fun partition hpartition => ?_
    obtain ⟨log, hserves⟩ := hserved partition hpartition
    exact ⟨_, log, hserves, rfl⟩

theorem partitions_eq_ok {cluster : ClusterState} {topic : String} {partitions : List Int32} :
    cluster.partitions topic = .ok partitions ↔ cluster.topics[topic]? = some partitions := by
  unfold ClusterState.partitions
  cases cluster.topics[topic]? <;> simp

end ClusterState

namespace World

/-- Looking up leaders changes nothing. -/
theorem lookups_run (topic : String) (partitions : List Int32) (world : World) :
    (partitions.mapM (clusterView.leader topic)).run world =
      (partitions.map fun partition =>
        (world.cluster.leader ⟨topic, partition⟩).map World.broker, world) := by
  induction partitions with
  | nil => rfl
  | cons partition rest ih =>
      rw [mapM_cons_run, leader_run, ih]
      rfl

/-- All leaders are found exactly if each partition has one; they are brokers of the world. -/
theorem lookups_eq_ok {topic : String} {partitions : List Int32} {world reached : World}
    {leaders : List (Broker World)} :
    (partitions.mapM (clusterView.leader topic)).run world = (leaders.map .ok, reached) ↔
      world = reached ∧ ∃ ids : List Int32, leaders = ids.map World.broker ∧
        List.Forall₂ (fun partition id => world.cluster.leader ⟨topic, partition⟩ = .ok id)
          partitions ids := by
  rw [lookups_run, Prod.mk.injEq, and_comm]
  refine and_congr_right fun _ => ?_
  induction partitions generalizing leaders with
  | nil =>
      cases leaders with
      | nil => simp
      | cons leader others => simp
  | cons partition rest ih =>
      cases leaders with
      | nil => simp
      | cons leader others =>
          rw [List.map_cons, List.map_cons, List.cons.injEq, ih, map_eq_ok]
          constructor
          · rintro ⟨⟨id, hid, rfl⟩, ids, rfl, hrest⟩
            exact ⟨id :: ids, rfl, .cons hid hrest⟩
          · rintro ⟨ids, hleaders, hall⟩
            cases hall with
            | cons hid hrest =>
                obtain ⟨rfl, rfl⟩ := List.cons.inj hleaders
                exact ⟨⟨_, hid, rfl⟩, _, rfl, hrest⟩

/-- What is heard from the brokers of a world they answer in a state that differs from it in
nothing but counts. -/
theorem asked_of_heard {topic : String} {partitions ids : List Int32} {world : World}
    {broker : Broker World} {replies : EndReplies}
    (hheard : (broker, replies) ∈
      ((hear topic partitions (ids.map World.broker)).run world).1) :
    ∃ reached, reached.quiet = world.quiet ∧
      replies = ((askEnds topic (ledBy broker.id partitions ids) broker).run reached).1 := by
  have hids : (ids.map World.broker).map Broker.id = ids := by
    rw [List.map_map]
    exact List.map_id ids
  have hkeeps : ∀ first ∈ firstsBy Broker.id (ids.map World.broker), Keeps quiet
      ((first, ·) <$> askEnds topic
        (ledBy first.id partitions ((ids.map World.broker).map Broker.id)) first) := by
    intro first hfirst
    obtain ⟨id, -, rfl⟩ := List.mem_map.mp (mem_of_mem_firstsBy hfirst)
    exact (keeps_askEnds topic _ id).map _
  obtain ⟨first, -, reached, hquiet, hanswer⟩ := Keeps.exists_asked hkeeps hheard
  obtain ⟨rfl, rfl⟩ := Prod.mk.inj hanswer
  rw [hids]
  exact ⟨reached, hquiet, rfl⟩

/-- The first broker with the identifier of a leader is the leader itself. -/
theorem find?_broker {ids : List Int32} {id : Int32} (hid : id ∈ ids) :
    (ids.map World.broker).find? (·.id = (World.broker id).id) = some (World.broker id) := by
  obtain ⟨found, hfound⟩ : ∃ found,
      (ids.map World.broker).find? (·.id = (World.broker id).id) = some found :=
    Option.isSome_iff_exists.mp (List.find?_isSome.mpr
      ⟨World.broker id, List.mem_map_of_mem hid, by simp⟩)
  obtain ⟨first, -, rfl⟩ := List.mem_map.mp (List.mem_of_find?_eq_some hfound)
  have hsame := List.find?_some hfound
  obtain rfl : first = id := of_decide_eq_true hsame
  exact hfound

/-- A record of the reference has the ends of the log that its partition is served with. -/
theorem recordAt_iff {topic : String} {partitions ids : List Int32} {world : World}
    (hleaders : List.Forall₂ (fun partition id =>
      world.cluster.leader ⟨topic, partition⟩ = .ok id) partitions ids)
    {place : Nat} {partition id : Int32} (hpartition : partitions[place]? = some partition)
    (hid : ids[place]? = some id) {record : Progress} :
    RecordAt topic (ids.map World.broker)
        ((hear topic partitions (ids.map World.broker)).run world).1 partition (World.broker id)
        record ↔ world.cluster.RangeOf topic partition record := by
  obtain ⟨_, hfound, hleader⟩ := (forall₂_iff_getElem?.mp hleaders).2 place partition hpartition
  obtain rfl := Option.some.inj (hid.symm.trans hfound)
  obtain ⟨hnamed, hmem⟩ := ClusterState.leader_eq_ok.mp hleader
  obtain ⟨broker, hbroker⟩ := Option.isSome_iff_exists.mp
    (Std.ExtTreeMap.mem_iff_isSome_getElem?.mp hmem)
  have hasked : partition ∈ ledBy id partitions ids := mem_ledBy hpartition hid
  have hfirst := find?_broker (List.mem_of_getElem? hid)
  -- What is heard from the leader is what it answers when it is asked about this partition.
  have hread {replies : EndReplies} (hheard : (World.broker id, replies) ∈
      ((hear topic partitions (ids.map World.broker)).run world).1) :
      ReadFrom topic partition replies record ↔ world.cluster.RangeOf topic partition record := by
    obtain ⟨reached, hquiet, rfl⟩ := asked_of_heard hheard
    obtain ⟨other, hother, hsame⟩ := ClusterState.exists_broker_of_quiet hquiet.symm hbroker
    refine (readFrom_askEnds hother hasked).trans (exists_congr fun log => and_congr_left' ?_)
    constructor
    · exact fun hserves => ⟨id, broker, hnamed, hbroker, hserves.of_quiet hsame⟩
    · rintro ⟨named, state, hnamed', hstate, hserves⟩
      obtain rfl := Option.some.inj (hnamed.symm.trans hnamed')
      obtain rfl := Option.some.inj (hbroker.symm.trans hstate)
      exact hserves.of_quiet hsame.symm
  constructor
  · rintro ⟨first, replies, hfound, hheard, hrecord⟩
    obtain rfl := Option.some.inj (hfirst.symm.trans hfound)
    exact (hread hheard).mp hrecord
  · intro hrange
    obtain ⟨replies, hheard⟩ : ∃ replies, (World.broker id, replies) ∈
        ((hear topic partitions (ids.map World.broker)).run world).1 :=
      exists_heard (mem_firstsBy.mpr hfirst) world
    exact ⟨_, replies, hfirst, hheard, (hread hheard).mpr hrange⟩

/-- A survey succeeds exactly if every partition of the topic is served, and lists the ends of
the logs that they are served with. -/
theorem survey_eq_ok {topic : String} {world : World} {records : List Progress} :
    ((survey clusterView topic).runFrom world).1 = .ok records ↔
      ∃ partitions, world.cluster.topics[topic]? = some partitions ∧
        List.Forall₂ (world.cluster.RangeOf topic) partitions records := by
  constructor
  · intro hok
    obtain ⟨partitions, listed, leaders, found, hlisted, hlookups⟩ := exists_leaders_of_survey hok
    obtain ⟨hlength, hrecords⟩ := (survey_eq_ok_of_leaders hlisted hlookups).mp hok
    obtain ⟨hpartitions, rfl⟩ := Prod.mk.inj hlisted
    obtain ⟨rfl, ids, rfl, hleaders⟩ := lookups_eq_ok.mp hlookups
    refine ⟨partitions, ClusterState.partitions_eq_ok.mp hpartitions, ?_⟩
    refine forall₂_iff_getElem?.mpr ⟨hlength, fun place partition hpartition => ?_⟩
    obtain ⟨id, hid, -⟩ := (forall₂_iff_getElem?.mp hleaders).2 place partition hpartition
    obtain ⟨record, hrecord, hread⟩ := hrecords place partition (World.broker id) hpartition
      (by rw [List.getElem?_map, hid, Option.map_some])
    exact ⟨record, hrecord, (recordAt_iff hleaders hpartition hid).mp hread⟩
  · rintro ⟨partitions, htopic, hranges⟩
    obtain ⟨hlength, hplaces⟩ := forall₂_iff_getElem?.mp hranges
    obtain ⟨ids, hleaders⟩ : ∃ ids, List.Forall₂ (fun partition id =>
        world.cluster.leader ⟨topic, partition⟩ = .ok id) partitions ids := by
      refine exists_related fun partition hpartition => ?_
      obtain ⟨log, hserves⟩ := ClusterState.exists_ranges_iff.mp ⟨records, hranges⟩ partition hpartition
      exact hserves.leader
    have hlisted : (clusterView.partitions topic).run world = (.ok partitions, world) :=
      congrArg (·, world) (ClusterState.partitions_eq_ok.mpr htopic)
    have hlookups := lookups_eq_ok.mpr ⟨rfl, ids, rfl, hleaders⟩
    refine (survey_eq_ok_of_leaders hlisted hlookups).mpr ⟨hlength, ?_⟩
    intro place partition leader hpartition hleader
    rw [List.getElem?_map] at hleader
    obtain ⟨id, hid, rfl⟩ := Option.map_eq_some_iff.mp hleader
    obtain ⟨record, hrecord, hrange⟩ := hplaces place partition hpartition
    exact ⟨record, hrecord, (recordAt_iff hleaders hpartition hid).mpr hrange⟩

theorem survey_of_unregistered {topic : String} {world : World}
    (htopic : world.cluster.topics[topic]? = none) :
    ((survey clusterView topic).runFrom world).1 =
      .error (.connection .topicPartitions (Trouble.unknownTopic topic).cause) := by
  have hlisted : (clusterView.partitions topic).run world =
      (world.cluster.partitions topic, world) := rfl
  rw [survey_run, hlisted, ClusterState.partitions, htopic]

end World

end ConsumerGroups.Simulated
