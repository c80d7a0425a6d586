import ConsumerGroups.Proofs.Acknowledgement
import ConsumerGroups.Proofs.Simulated.Reading

/-! # What commits store in the simulated world

A commit that a broker does not refuse stores the marks of its batch one after another, so that
the last record of a partition counts. It leaves all other groups and topics alone.
-/

namespace ConsumerGroups.Simulated

open Message Results

/-- The mark of the last record of a partition in a batch. -/
def lastMark? (batch : List Progress) (partition : Int32) : Option Mark :=
  (batch.filter (·.partition = partition)).getLast?.map (·.mark)

theorem lastMark?_cons (record : Progress) (rest : List Progress) (partition : Int32) :
    lastMark? (record :: rest) partition =
      (lastMark? rest partition).or
        (if record.partition = partition then some record.mark else none) := by
  unfold lastMark?
  by_cases hpartition : record.partition = partition
  · simp only [hpartition, List.filter_cons, decide_true, if_true, List.getLast?_cons]
    cases (rest.filter (·.partition = partition)).getLast? <;> rfl
  · simp [hpartition]

theorem lastMark?_eq_none {batch : List Progress} {partition : Int32}
    (hothers : ∀ record ∈ batch, record.partition ≠ partition) :
    lastMark? batch partition = none := by
  have hnone : batch.filter (·.partition = partition) = [] := by
    simpa [List.filter_eq_nil_iff] using hothers
  rw [lastMark?, hnone]
  rfl

/-- Whether a commit has an entry for a topic of a group. -/
def Names (request : OffsetCommit.Request) (group topic : String) : Prop :=
  request.group = group ∧ ∃ entry ∈ request.topics, entry.name = topic

namespace BrokerState

/-! ## Single entries -/

theorem store_commitCodes (group topic : String) (state : BrokerState)
    (entry : OffsetCommit.Entry) :
    (store group topic state entry).commitCodes = state.commitCodes := by
  unfold store
  dsimp only
  split <;> rfl

theorem store_fetchCodes (group topic : String) (state : BrokerState)
    (entry : OffsetCommit.Entry) :
    (store group topic state entry).fetchCodes = state.fetchCodes := by
  unfold store
  dsimp only
  split <;> rfl

/-- A commit touches the marks of its own group and topic alone. -/
theorem store_mark?_of_ne {group topic : String} {other : String} {place : TopicPartition}
    (hother : ¬(group = other ∧ topic = place.topic)) (state : BrokerState)
    (entry : OffsetCommit.Entry) :
    (store group topic state entry).mark? other place = state.mark? other place := by
  unfold store
  dsimp only
  split
  · rfl
  · have hkey : compare (GroupPartition.mk group ⟨topic, entry.partition⟩)
        ⟨other, place⟩ ≠ .eq := by
      intro hequal
      cases Std.LawfulEqOrd.eq_of_compare hequal
      exact hother ⟨rfl, rfl⟩
    simp [mark?, Std.ExtTreeMap.getElem?_insert, hkey]

/-- An entry that is not refused puts its mark in place of that of its partition. -/
theorem store_mark? {group topic : String} {state : BrokerState} {entry : OffsetCommit.Entry}
    (hfree : TopicPartition.mk topic entry.partition ∉ state.commitCodes) (partition : Int32) :
    (store group topic state entry).mark? group ⟨topic, partition⟩ =
      if entry.partition = partition then
        some { offset := entry.offset, metadata := entry.metadata.getD "" }
      else state.mark? group ⟨topic, partition⟩ := by
  have hkey : compare (GroupPartition.mk group ⟨topic, entry.partition⟩)
      ⟨group, ⟨topic, partition⟩⟩ = .eq ↔ entry.partition = partition := by
    rw [Std.LawfulEqOrd.compare_eq_iff_eq]
    simp
  unfold store
  simp [hfree, mark?, Std.ExtTreeMap.getElem?_insert, hkey]

theorem store_of_refused {group topic : String} {state : BrokerState} {entry : OffsetCommit.Entry}
    (hrefused : TopicPartition.mk topic entry.partition ∈ state.commitCodes) :
    store group topic state entry = state := by
  unfold store
  simp [hrefused]

/-! ## Whole requests -/

theorem storeAll_commitCodes (state : BrokerState) (request : OffsetCommit.Request) :
    (state.storeAll request).commitCodes = state.commitCodes :=
  Keeps.foldl commitCodes (fun topic _ _ => Keeps.foldl commitCodes
    (fun entry _ state => store_commitCodes request.group topic.name state entry) _) _

theorem storeAll_fetchCodes (state : BrokerState) (request : OffsetCommit.Request) :
    (state.storeAll request).fetchCodes = state.fetchCodes :=
  Keeps.foldl fetchCodes (fun topic _ _ => Keeps.foldl fetchCodes
    (fun entry _ state => store_fetchCodes request.group topic.name state entry) _) _

/-- A request leaves the marks of every topic that it has no entry for. -/
theorem storeAll_mark?_of_not_names {request : OffsetCommit.Request} {group : String}
    {place : TopicPartition} (hother : ¬Names request group place.topic) (state : BrokerState) :
    (state.storeAll request).mark? group place = state.mark? group place := by
  refine Keeps.foldl (mark? · group place) (fun topic htopic state => ?_) state
  refine Keeps.foldl (mark? · group place) (fun entry _ state => ?_) state
  refine store_mark?_of_ne (fun hsame => ?_) state entry
  exact hother ⟨hsame.1, topic, htopic, hsame.2⟩

/-- A broker stores the marks of the last records of a batch, but for the partitions that it
refuses. A refused record does not keep those after it from being stored. -/
theorem storeAll_mark?_batch (group topic : String) (batch : List Progress) (state : BrokerState)
    (partition : Int32) :
    (state.storeAll (OffsetCommit.request group topic batch)).mark? group ⟨topic, partition⟩ =
      if TopicPartition.mk topic partition ∈ state.commitCodes then
        state.mark? group ⟨topic, partition⟩
      else (lastMark? batch partition).or (state.mark? group ⟨topic, partition⟩) := by
  change ((batch.map OffsetCommit.Entry.ofProgress).foldl (store group topic) state).mark? group
    ⟨topic, partition⟩ = _
  induction batch generalizing state with
  | nil => simp [lastMark?]
  | cons record rest ih =>
      rw [List.map_cons, List.foldl_cons, ih, store_commitCodes, lastMark?_cons, Option.or_assoc]
      have hentry : (OffsetCommit.Entry.ofProgress record).partition = record.partition := rfl
      by_cases hrecord : TopicPartition.mk topic record.partition ∈ state.commitCodes
      · rw [store_of_refused (hentry ▸ hrecord)]
        by_cases hpartition : record.partition = partition
        · subst hpartition
          simp [hrecord]
        · simp [hpartition]
      · rw [store_mark? (hentry ▸ hrecord)]
        by_cases hpartition : record.partition = partition
        · subst hpartition
          simp [hrecord, OffsetCommit.Entry.ofProgress]
        · simp [hpartition, hentry]

/-- A batch that is not refused stores the mark of the last record of every partition in it. -/
theorem storeAll_mark? {group topic : String} {batch : List Progress} {state : BrokerState}
    (hfree : ∀ record ∈ batch, TopicPartition.mk topic record.partition ∉ state.commitCodes)
    (partition : Int32) :
    (state.storeAll (OffsetCommit.request group topic batch)).mark? group ⟨topic, partition⟩ =
      (lastMark? batch partition).or (state.mark? group ⟨topic, partition⟩) := by
  rw [storeAll_mark?_batch]
  split
  next hrefused =>
    have hothers : ∀ record ∈ batch, record.partition ≠ partition := by
      intro record hrecord hpartition
      exact hfree record hrecord (hpartition ▸ hrefused)
    rw [lastMark?_eq_none hothers, Option.none_or]
  next => rfl

/-- A broker stores all that it does not refuse, unless an outage keeps it from doing so. -/
theorem commit_run (id : Int32) (request : OffsetCommit.Request) (state : BrokerState) :
    (commit id request).run state =
      match state.outage with
      | some reason => (.error (Trouble.brokerDown id reason).cause, state)
      | none => (.ok (state.commitResponse request), state.storeAll request) := by
  cases houtage : state.outage <;> simp [commit, unlessDown, houtage] <;> rfl

theorem resultsOf_commitResponse {state : BrokerState} (hmutes : state.mutesCommits = false)
    (group topic : String) (batch : List Progress) :
    (state.commitResponse (OffsetCommit.request group topic batch)).resultsOf topic =
      batch.map fun record => state.commitResult topic (OffsetCommit.Entry.ofProgress record) := by
  simp [commitResponse, hmutes, OffsetCommit.Response.resultsOf, OffsetCommit.request, blocksOf]

/-- An acknowledged batch has no partition that the broker refuses. -/
theorem free_of_acknowledged {state : BrokerState} (hcodes : state.RefusesByCode)
    {group topic : String} {batch : List Progress}
    (hdone : Commitment.acknowledged
      (state.commitResponse (OffsetCommit.request group topic batch)) topic = .ok ()) :
    ∀ record ∈ batch, TopicPartition.mk topic record.partition ∉ state.commitCodes := by
  intro record hrecord hrefused
  unfold Commitment.acknowledged at hdone
  dsimp only at hdone
  split at hdone
  · cases hdone
  · rename_i hnone
    split at hdone
    · cases hdone
    · rename_i hanswered
      -- A response that is emptied has no result for the topic, which is no acknowledgement.
      have hmutes : state.mutesCommits = false := by
        cases hmutes : state.mutesCommits with
        | false => rfl
        | true => simp [commitResponse, OffsetCommit.Response.resultsOf, hmutes] at hanswered
      rw [resultsOf_commitResponse hmutes, List.find?_eq_none] at hnone
      have hzero := hnone _ (List.mem_map_of_mem hrecord)
      obtain ⟨code, hcode⟩ := Std.ExtTreeMap.mem_iff_isSome_getElem?.trans
        Option.isSome_iff_exists |>.mp hrefused
      have hnonzero := hcodes.commits _ code hcode
      refine hzero ?_
      simp [commitResult, OffsetCommit.Entry.ofProgress, Std.ExtTreeMap.getD_eq_getD_getElem?,
        hcode, hnonzero]

end BrokerState

/-! ## Commits over the cluster -/

theorem ClusterState.markOn?_insert (cluster : ClusterState) (id : Int32) (changed : BrokerState)
    (other : Int32) (group : String) (place : TopicPartition) :
    { cluster with brokers := cluster.brokers.insert id changed }.markOn? other group place =
      if id = other then changed.mark? group place else cluster.markOn? other group place := by
  unfold markOn?
  rw [Std.ExtTreeMap.getElem?_insert]
  simp only [Std.LawfulEqOrd.compare_eq_iff_eq]
  by_cases hid : id = other <;> simp [hid]

namespace World

/-- What a broker of the world does with a commit. An outage leaves the broker as it is. -/
theorem coordinator_commit_run {world : World} {id : Int32} {broker : BrokerState}
    (hbroker : world.cluster.brokers[id]? = some broker) (version : Int16)
    (request : OffsetCommit.Request) :
    ((World.coordinator id).commit version request).run world =
      match broker.outage with
      | some reason => (.error (Trouble.brokerDown id reason).cause,
          { world with
            cluster := { world.cluster with brokers := world.cluster.brokers.insert id broker } })
      | none => (.ok (broker.commitResponse request),
          { world with
            cluster :=
              { world.cluster with
                brokers := world.cluster.brokers.insert id (broker.storeAll request) } }) := by
  rw [World.coordinator, onBroker_run, hbroker]
  simp only [BrokerState.commit_run]
  cases broker.outage <;> rfl

theorem commit_run (group topic : String) (batch : List Progress) (world : World) :
    (Commitment.commit clusterView group topic batch).runFrom world =
      match world.cluster.coordinator group with
      | .error cause => (.error (.connection .groupCoordinator cause), world)
      | .ok id =>
        if batch.isEmpty then (.ok (), world)
        else
          match ((World.coordinator id).commit OffsetCommit.version
            (OffsetCommit.request group topic batch)).run world with
          | (.error cause, reached) => (.error (.connection .commitRequest cause), reached)
          | (.ok response, reached) => (Commitment.acknowledged response topic, reached) := by
  have hfound : (clusterView.coordinator group).run world =
      ((world.cluster.coordinator group).map World.coordinator, world) := rfl
  rw [Commitment.commit_run, hfound]
  cases world.cluster.coordinator group with
  | error cause => rfl
  | ok id =>
      simp only [Except.map]
      split
      · rfl
      · rcases ((World.coordinator id).commit OffsetCommit.version
          (OffsetCommit.request group topic batch)).run world with ⟨answer, reached⟩
        cases answer <;> rfl

/-- A commit that succeeds has stored the last mark of every partition of its batch on the
coordinator. -/
theorem commit_markOn? {world : World} (hcodes : world.cluster.RefusesByCode) {group topic : String}
    {id : Int32} (hcoordinator : world.cluster.coordinator group = .ok id) {batch : List Progress}
    (hdone : ((Commitment.commit clusterView group topic batch).runFrom world).1 = .ok ())
    (partition : Int32) :
    ((Commitment.commit clusterView group topic batch).runFrom world).2.cluster.markOn? id group
        ⟨topic, partition⟩ =
      (lastMark? batch partition).or (world.cluster.markOn? id group ⟨topic, partition⟩) := by
  rw [commit_run, hcoordinator] at hdone ⊢
  by_cases hempty : batch.isEmpty
  · obtain rfl := List.isEmpty_iff.mp hempty
    rfl
  · simp only [hempty, Bool.false_eq_true, if_false] at hdone ⊢
    cases hbroker : world.cluster.brokers[id]? with
    | none =>
        rw [World.coordinator, onBroker_run, hbroker] at hdone
        cases hdone
    | some broker =>
        rw [coordinator_commit_run hbroker] at hdone ⊢
        cases houtage : broker.outage with
        | some reason => simp [houtage] at hdone
        | none =>
            simp only [houtage] at hdone ⊢
            have hfree := BrokerState.free_of_acknowledged (hcodes id broker hbroker) hdone
            rw [ClusterState.markOn?_insert, if_pos rfl, BrokerState.storeAll_mark? hfree]
            simp [ClusterState.markOn?, hbroker]

end World

end ConsumerGroups.Simulated
