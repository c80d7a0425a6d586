import ConsumerGroups.Console
import ConsumerGroups.Proofs.Simulated.Ranges

/-! # What is read from the simulated world

A query that succeeds has read the tables of the world: the ranges are those of the logs that
the leaders keep, and the marks are those that the coordinator stores.
-/

namespace ConsumerGroups.Simulated

open Message Range Results

/-! ## Ranges -/

/-- A survey that succeeds lists the partitions of the topic with the ends of their leaders'
logs. -/
theorem World.survey_records {topic : String} {world : World} {records : List Progress}
    (hrecords : ((survey clusterView topic).runFrom world).1 = .ok records) :
    ∃ partitions, world.cluster.topics[topic]? = some partitions ∧
      records.length = partitions.length ∧
      ∀ (place : Nat) partition, partitions[place]? = some partition →
        ∃ log, world.cluster.logOf? ⟨topic, partition⟩ = some log ∧
          records[place]? = some { partition, oldest := log.oldest, newest := log.newest } := by
  obtain ⟨partitions, htopic, hranges⟩ := survey_eq_ok.mp hrecords
  obtain ⟨hlength, hplaces⟩ := forall₂_iff_getElem?.mp hranges
  refine ⟨partitions, htopic, hlength, fun place partition hpartition => ?_⟩
  obtain ⟨record, hrecord, log, hserves, rfl⟩ := hplaces place partition hpartition
  exact ⟨log, hserves.logOf?, hrecord⟩

/-! ## Marks -/

/-- The mark that is read where none is stored. -/
def noMark : Mark :=
  { offset := -1, metadata := "" }

/-- The mark that a broker of the cluster stores for a partition and a group. -/
def ClusterState.markOn? (cluster : ClusterState) (id : Int32) (group : String)
    (place : TopicPartition) : Option Mark :=
  cluster.brokers[id]?.bind (·.mark? group place)

/-- A broker none of whose refusals of single partitions has the code zero, which would read as
no refusal at all. -/
structure BrokerState.RefusesByCode (broker : BrokerState) : Prop where
  commits : ∀ (place : TopicPartition) (code : Int16),
    broker.commitCodes[place]? = some code → code ≠ 0
  fetches : ∀ (place : TopicPartition) (code : Int16),
    broker.fetchCodes[place]? = some code → code ≠ 0

theorem BrokerState.RefusesByCode.of_quiet {first second : BrokerState}
    (hcodes : first.RefusesByCode) (hquiet : first.quiet = second.quiet) : second.RefusesByCode where
  commits := congr_quiet (f := BrokerState.commitCodes) (fun _ => rfl) hquiet ▸ hcodes.commits
  fetches := congr_quiet (f := BrokerState.fetchCodes) (fun _ => rfl) hquiet ▸ hcodes.fetches

/-- A cluster all of whose brokers refuse by codes. -/
def ClusterState.RefusesByCode (cluster : ClusterState) : Prop :=
  ∀ (id : Int32) broker, cluster.brokers[id]? = some broker → broker.RefusesByCode

namespace ClusterState

/-- The marks of a cluster are among what its queries keep. -/
theorem markOn?_quiet (cluster : ClusterState) (id : Int32) (group : String)
    (place : TopicPartition) : cluster.quiet.markOn? id group place = cluster.markOn? id group place := by
  unfold markOn?
  rw [getElem?_quiet]
  cases cluster.brokers[id]? <;> rfl

theorem markOn?_of_quiet {first second : ClusterState} (hquiet : first.quiet = second.quiet)
    (id : Int32) (group : String) (place : TopicPartition) :
    first.markOn? id group place = second.markOn? id group place := by
  rw [← markOn?_quiet first, hquiet, markOn?_quiet]

/-- Clusters alike but for their counts hide the metadata of the same marks. -/
theorem hidesMetadata_of_quiet {first second : ClusterState} (hquiet : first.quiet = second.quiet)
    {id : Int32} (hmetadata : ∀ broker, second.brokers[id]? = some broker →
      broker.hidesMetadata = false) {broker : BrokerState}
    (hbroker : first.brokers[id]? = some broker) : broker.hidesMetadata = false := by
  obtain ⟨other, hother, hsame⟩ := exists_broker_of_quiet hquiet hbroker
  have hhides : other.hidesMetadata = broker.hidesMetadata :=
    BrokerState.congr_quiet (f := BrokerState.hidesMetadata) (fun _ => rfl) hsame
  exact hhides.symm.trans (hmetadata other hother)

theorem RefusesByCode.of_quiet {first second : ClusterState} (hcodes : first.RefusesByCode)
    (hquiet : second.quiet = first.quiet) : second.RefusesByCode := by
  intro id broker hbroker
  obtain ⟨other, hother, hsame⟩ := exists_broker_of_quiet hquiet hbroker
  exact (hcodes id other hother).of_quiet hsame

end ClusterState

namespace BrokerState

theorem partition_of_fetchBlock? {state : BrokerState} {group topic : String} {partition : Int32}
    {block : OffsetFetch.Block} (hblock : state.fetchBlock? group topic partition = some block) :
    block.partition = partition := by
  unfold fetchBlock? at hblock
  dsimp only at hblock
  split at hblock
  · cases hblock
  · split at hblock <;> cases hblock <;> rfl

/-- A block without a code holds the stored mark. -/
theorem stored_of_fetchBlock? {state : BrokerState} (hcodes : state.RefusesByCode)
    {group topic : String} {partition : Int32} {block : OffsetFetch.Block}
    (hblock : state.fetchBlock? group topic partition = some block) (hzero : block.code = 0) :
    let mark := (state.mark? group ⟨topic, partition⟩).getD noMark
    block.offset = mark.offset ∧
      block.metadata = if state.hidesMetadata then none else some mark.metadata := by
  unfold fetchBlock? at hblock
  dsimp only at hblock
  split at hblock
  · cases hblock
  · split at hblock
    · rename_i code hcode
      cases hblock
      exact absurd hzero (hcodes.fetches _ code hcode)
    · cases hblock
      exact ⟨rfl, rfl⟩

theorem fetchBlock?_of_blockOf? {state : BrokerState} {group topic : String}
    {partitions : List Int32} {partition : Int32} {block : OffsetFetch.Block}
    (hblock : (state.fetchResponse (OffsetFetch.request group topic partitions)).blockOf? topic
      partition = some block) : state.fetchBlock? group topic partition = some block := by
  unfold OffsetFetch.Response.blockOf? fetchResponse at hblock
  split at hblock
  · simp [blockOf?] at hblock
  · have hanswers : blockOf? OffsetFetch.Block.partition topic partition
        [⟨topic, partitions.filterMap (state.fetchBlock? group topic)⟩] = _ :=
      blockOf?_answers (fun _ _ hanswer => partition_of_fetchBlock? hanswer)
        topic partitions partition
    have hfound := hanswers.symm.trans hblock
    split at hfound
    · exact hfound
    · cases hfound

/-- A mark that is read from an answer with metadata is the one that the broker stores. -/
theorem mark_of_fetchResponse {state : BrokerState} (hcodes : state.RefusesByCode)
    (hmetadata : state.hidesMetadata = false) {group topic : String} {partitions : List Int32}
    {partition : Int32} {mark : Mark}
    (hmark : Commitment.markOf (state.fetchResponse (OffsetFetch.request group topic partitions))
      topic partition = .ok mark) :
    mark = (state.mark? group ⟨topic, partition⟩).getD noMark := by
  unfold Commitment.markOf at hmark
  split at hmark
  · cases hmark
  · rename_i block hfound
    split at hmark
    · cases hmark
    · rename_i hcode
      have hblock := fetchBlock?_of_blockOf? hfound
      obtain ⟨hoffset, hstored⟩ := stored_of_fetchBlock? hcodes hblock (not_not.mp hcode)
      rw [hmetadata] at hstored
      cases hmark
      simp [hoffset, hstored]

theorem marks_of_fetchResponse {state : BrokerState} (hcodes : state.RefusesByCode)
    (hmetadata : state.hidesMetadata = false) {group topic : String} {partitions : List Int32}
    {marks : List Mark}
    (hmarks : Commitment.marksOf (state.fetchResponse (OffsetFetch.request group topic partitions))
      group topic partitions = .ok marks) :
    marks = partitions.map fun partition => (state.mark? group ⟨topic, partition⟩).getD noMark := by
  unfold Commitment.marksOf at hmarks
  split at hmarks
  · cases hmarks
  · have hall : marks.map id = _ := map_successes (mapM_eq_ok.mp hmarks)
      fun _ _ hmark => mark_of_fetchResponse hcodes hmetadata hmark
    simpa using hall

end BrokerState

namespace World

/-- A fetch that succeeds reads the marks that the coordinator stores. -/
theorem fetch_marks {world : World} (hcodes : world.cluster.RefusesByCode) {group : String}
    {id : Int32} (hcoordinator : world.cluster.coordinator group = .ok id)
    (hmetadata : ∀ broker, world.cluster.brokers[id]? = some broker →
      broker.hidesMetadata = false) {topic : String} {partitions : List Int32} {marks : List Mark}
    (hmarks : ((Commitment.fetch clusterView group topic partitions).runFrom world).1 =
      .ok marks) :
    marks = partitions.map fun partition =>
      (world.cluster.markOn? id group ⟨topic, partition⟩).getD noMark := by
  have hfound : clusterView.coordinator group world = (.ok (World.coordinator id), world) := by
    change ((world.cluster.coordinator group).map World.coordinator, world) = _
    rw [hcoordinator]
    rfl
  have hanswer : (World.coordinator id).fetch OffsetFetch.version
      (OffsetFetch.request group topic partitions) world = _ := onBroker_run _ id world
  rw [Commitment.fetch, Errand.runFrom_bind, Errand.runFrom_await, hfound] at hmarks
  simp only [Except.mapError, Errand.runFrom_bind, Errand.runFrom_await, hanswer] at hmarks
  cases hbroker : world.cluster.brokers[id]? with
  | none => simp [hbroker] at hmarks
  | some broker =>
      cases houtage : broker.outage with
      | some reason =>
          simp [hbroker, BrokerState.fetch, BrokerState.unlessDown, houtage] at hmarks
      | none =>
          simp [hbroker, BrokerState.fetch, BrokerState.unlessDown, houtage] at hmarks
          have hstored := BrokerState.marks_of_fetchResponse (hcodes id broker hbroker)
            (hmetadata broker hbroker) hmarks
          simpa [ClusterState.markOn?, hbroker] using hstored

/-- Records that have each partition at its own place are about just these partitions. -/
theorem partitions_of_records {records : List Progress} {partitions : List Int32}
    (hlength : records.length = partitions.length)
    (hrecords : ∀ (place : Nat) partition, partitions[place]? = some partition →
      ∃ record, records[place]? = some record ∧ record.partition = partition) :
    records.map (·.partition) = partitions := by
  apply List.ext_getElem?
  intro place
  cases hpartition : partitions[place]? with
  | none =>
      have hbeyond := List.getElem?_eq_none_iff.mp hpartition
      exact List.getElem?_eq_none (by rw [List.length_map, hlength]; exact hbeyond)
  | some partition =>
      obtain ⟨record, hrecord, hsame⟩ := hrecords place partition hpartition
      rw [List.getElem?_map, hrecord, Option.map_some, hsame]

/-- A progress query that succeeds lists the partitions of the topic, with the ends of their
leaders' logs and the marks that the coordinator stores. -/
theorem progress_entries {world : World} (hcodes : world.cluster.RefusesByCode) {group : String}
    {id : Int32} (hcoordinator : world.cluster.coordinator group = .ok id)
    (hmetadata : ∀ broker, world.cluster.brokers[id]? = some broker →
      broker.hidesMetadata = false) {topic : String} {entries : List Progress}
    (hentries : ((Console.progressOn clusterView group topic).runFrom world).1 = .ok entries) :
    ∃ partitions, world.cluster.topics[topic]? = some partitions ∧
      entries.length = partitions.length ∧
      ∀ (place : Nat) partition, partitions[place]? = some partition →
        ∃ log, world.cluster.logOf? ⟨topic, partition⟩ = some log ∧
          entries[place]? = some
            { partition
              oldest := log.oldest
              newest := log.newest
              mark := (world.cluster.markOn? id group ⟨topic, partition⟩).getD noMark } := by
  have hquiet : ((survey clusterView topic).runFrom world).2.quiet = world.quiet :=
    keeps_survey topic world
  rw [Console.progressOn, Errand.runFrom_bind] at hentries
  rcases hsurvey : (survey clusterView topic).runFrom world with ⟨result, reached⟩
  rw [hsurvey] at hentries hquiet
  cases result with
  | error failure => cases hentries
  | ok ranges =>
      obtain ⟨partitions, htopic, hlength, hranges⟩ :=
        survey_records (congrArg Prod.fst hsurvey)
      refine ⟨partitions, htopic, ?_⟩
      by_cases hempty : ranges.isEmpty
      · obtain rfl : ranges = [] := List.isEmpty_iff.mp hempty
        obtain rfl : partitions = [] := List.eq_nil_of_length_eq_zero hlength.symm
        obtain rfl : entries = [] := (Except.ok.inj hentries).symm
        exact ⟨rfl, by simp⟩
      · have hasked : ranges.map (·.partition) = partitions := by
          apply partitions_of_records hlength
          intro place partition hpartition
          obtain ⟨log, -, hrange⟩ := hranges place partition hpartition
          exact ⟨_, hrange, rfl⟩
        have hreached : reached.cluster.coordinator group = .ok id :=
          (ClusterState.coordinator_of_quiet hquiet group).trans hcoordinator
        have hsent : ∀ broker, reached.cluster.brokers[id]? = some broker →
            broker.hidesMetadata = false :=
          fun _ => ClusterState.hidesMetadata_of_quiet hquiet hmetadata
        simp only [hempty, Bool.false_eq_true, if_false, Errand.runFrom_bind, hasked] at hentries
        rcases hfetch : (Commitment.fetch clusterView group topic partitions).runFrom reached with
          ⟨fetched, final⟩
        rw [hfetch] at hentries
        cases fetched with
        | error failure => cases hentries
        | ok marks =>
            obtain rfl := fetch_marks (hcodes.of_quiet hquiet) hreached hsent
              (congrArg Prod.fst hfetch)
            obtain rfl := Except.ok.inj hentries
            refine ⟨by simp [hlength], fun place partition hpartition => ?_⟩
            obtain ⟨log, hlog, hrange⟩ := hranges place partition hpartition
            have hmark := ClusterState.markOn?_of_quiet hquiet id group ⟨topic, partition⟩
            refine ⟨log, hlog, ?_⟩
            rw [List.getElem?_zipWith, hrange, List.getElem?_map, hpartition, Option.map_some, hmark]

end World

end ConsumerGroups.Simulated
