import ConsumerGroups.Proofs.Simulated.Histories

/-! # The effect of a commit

A commit that reaches its coordinator is answered there, and stores what the coordinator does not
refuse, whatever the answer. In every other case it changes nothing at all.
-/

namespace ConsumerGroups.Simulated

open Message Results

namespace BrokerState

/-! ## What a broker stores and answers -/

/-- Storing changes nothing but the marks. -/
theorem storeAll_eq (state : BrokerState) (request : OffsetCommit.Request) :
    state.storeAll request = { state with marks := (state.storeAll request).marks } := by
  have hrest : { state.storeAll request with marks := ∅ } = { state with marks := ∅ } := by
    refine Keeps.foldl (fun state : BrokerState => { state with marks := ∅ })
      (fun topic _ state => ?_) state
    refine Keeps.foldl (fun state : BrokerState => { state with marks := ∅ })
      (fun entry _ state => ?_) state
    unfold store
    dsimp only
    split <;> rfl
  exact congrArg (fun broker : BrokerState =>
    { broker with marks := (state.storeAll request).marks }) hrest

/-- The answer to a commit of a batch, as it is read by whoever sent it. -/
def verdict (state : BrokerState) (topic : String) (batch : List Progress) :
    Except Failure Unit :=
  let codeOf (record : Progress) := state.commitCodes.getD ⟨topic, record.partition⟩ 0
  if state.mutesCommits then .error (.protocol (.commitUnanswered topic))
  else
    match batch.find? (codeOf · ≠ 0) with
    | some record => .error (.remote (.commitRefused record.partition) (codeOf record))
    | none => .ok ()

theorem acknowledged_commitResponse (state : BrokerState) (group topic : String)
    {batch : List Progress} (hbatch : batch ≠ []) :
    Commitment.acknowledged (state.commitResponse (OffsetCommit.request group topic batch)) topic =
      state.verdict topic batch := by
  unfold Commitment.acknowledged verdict
  cases hmutes : state.mutesCommits with
  | true => simp [commitResponse, OffsetCommit.Response.resultsOf, hmutes]
  | false =>
      dsimp only
      rw [resultsOf_commitResponse hmutes, List.find?_map]
      have hsome : batch.isEmpty = false := by simpa using hbatch
      simp only [List.isEmpty_map, hsome, Bool.false_eq_true, if_false]
      have hcode : (fun result : OffsetCommit.Result => decide (result.code ≠ 0)) ∘
          (fun record => state.commitResult topic (OffsetCommit.Entry.ofProgress record)) =
          fun record => decide (state.commitCodes.getD ⟨topic, record.partition⟩ 0 ≠ 0) := rfl
      rw [hcode]
      cases batch.find? fun record =>
        decide (state.commitCodes.getD ⟨topic, record.partition⟩ 0 ≠ 0) <;> rfl

end BrokerState

/-! ## Coordinators that are there -/

/-- A cluster that has the brokers that it names as coordinators. -/
def ClusterState.Staffed (cluster : ClusterState) : Prop :=
  ∀ (group : String) (id : Int32), cluster.coordinators[group]? = some id → id ∈ cluster.brokers

namespace ClusterState

theorem mem_enlist (cluster : ClusterState) (added id : Int32) :
    id ∈ (cluster.enlist added).brokers ↔ added = id ∨ id ∈ cluster.brokers := by
  unfold enlist
  rw [Std.ExtTreeMap.mem_insertIfNew, Std.LawfulEqOrd.compare_eq_iff_eq]

theorem mem_modifyBroker (cluster : ClusterState) (changed : Int32)
    (f : BrokerState → BrokerState) (id : Int32) :
    id ∈ (cluster.modifyBroker changed f).brokers ↔ id ∈ cluster.brokers :=
  Std.ExtTreeMap.mem_modify

theorem Staffed.enlist {cluster : ClusterState} (hstaffed : cluster.Staffed) (added : Int32) :
    (cluster.enlist added).Staffed := by
  intro group id hid
  exact (mem_enlist cluster added id).mpr (.inr (hstaffed group id hid))

theorem Staffed.modifyBroker {cluster : ClusterState} (hstaffed : cluster.Staffed)
    (changed : Int32) (f : BrokerState → BrokerState) :
    (cluster.modifyBroker changed f).Staffed := by
  intro group id hid
  exact (mem_modifyBroker cluster changed f id).mpr (hstaffed group id hid)

/-- Edits add brokers, and name only brokers that are there. -/
theorem Staffed.apply {cluster : ClusterState} (hstaffed : cluster.Staffed) (edit : ClusterEdit) :
    (edit.apply cluster).Staffed := by
  cases edit with
  | enlist added => exact hstaffed.enlist added
  | openTopic topic => exact hstaffed
  | appendPartition place leader log => exact (hstaffed.enlist leader).modifyBroker leader _
  | assignCoordinator named added =>
      intro group id hid
      change (cluster.coordinators.insert named added)[group]? = some id at hid
      rw [Std.ExtTreeMap.getElem?_insert] at hid
      split at hid
      · cases hid
        exact (mem_enlist cluster added added).mpr (.inl rfl)
      · exact hstaffed.enlist added group id hid
  | broker changed edit => exact hstaffed.modifyBroker changed edit.apply
  | close => exact hstaffed

/-- A cluster with brokers has a coordinator for every group, and one without has none. -/
theorem Staffed.coordinator {cluster : ClusterState} (hstaffed : cluster.Staffed) (group : String) :
    (cluster.brokers = ∅ ∧ cluster.coordinator group = .error Trouble.noBrokers.cause) ∨
      (cluster.brokers ≠ ∅ ∧ ∃ (id : Int32) (broker : BrokerState),
        cluster.coordinators[group]?.or cluster.brokers.minKey? = some id ∧
        cluster.coordinator group = .ok id ∧ cluster.brokers[id]? = some broker) := by
  have hnamed : ∀ id, cluster.coordinators[group]?.or cluster.brokers.minKey? = some id →
      id ∈ cluster.brokers := by
    intro id hid
    rcases Option.or_eq_some_iff.mp hid with hset | ⟨-, hlowest⟩
    · exact hstaffed group id hset
    · exact Std.ExtTreeMap.minKey?_mem hlowest
  cases hid : cluster.coordinators[group]?.or cluster.brokers.minKey? with
  | none =>
      left
      have hempty := (Option.or_eq_none_iff.mp hid).2
      refine ⟨Std.ExtTreeMap.minKey?_eq_none_iff.mp hempty, ?_⟩
      simp [ClusterState.coordinator, hid]
  | some id =>
      right
      have hmem := hnamed id hid
      obtain ⟨broker, hbroker⟩ := Option.isSome_iff_exists.mp
        (Std.ExtTreeMap.mem_iff_isSome_getElem?.mp hmem)
      refine ⟨?_, id, broker, rfl, ?_, hbroker⟩
      · rintro hempty
        simp [hempty] at hmem
      · simp [ClusterState.coordinator, hid, checkBroker, hmem]

/-- Putting back a broker as it was changes nothing. -/
theorem insert_same {cluster : ClusterState} {id : Int32} {broker : BrokerState}
    (hbroker : cluster.brokers[id]? = some broker) :
    { cluster with brokers := cluster.brokers.insert id broker } = cluster := by
  have hbrokers : cluster.brokers.insert id broker = cluster.brokers := by
    apply Std.ExtTreeMap.ext_getElem?
    intro other
    rw [Std.ExtTreeMap.getElem?_insert]
    split
    · rename_i hother
      rw [← Std.LawfulEqOrd.eq_of_compare hother, hbroker]
    · rfl
  rw [hbrokers]

end ClusterState

/-- Whatever happens to a cluster, it keeps the brokers that it names as coordinators. -/
theorem Change.staffed {edits : ClusterEdit → Prop} {sends : OffsetCommit.Request → Prop}
    {before after : ClusterState} (hchange : Change edits sends before after)
    (hstaffed : before.Staffed) : after.Staffed := by
  cases hchange with
  | none hquiet =>
      intro group id hid
      have hsame : before.quiet.coordinators = after.quiet.coordinators := by rw [hquiet]
      have hbefore : before.coordinators[group]? = some id := by
        change before.quiet.coordinators[group]? = some id
        rw [hsame]
        exact hid
      rw [← after.mem_quiet, hquiet, before.mem_quiet]
      exact hstaffed group id hbefore
  | edit edit hedit => exact hstaffed.apply edit
  | @store changed broker request hrequest hbroker =>
      intro group id hid
      exact Std.ExtTreeMap.mem_insert.mpr (.inr (hstaffed group id hid))

theorem Session.after_staffed (settings : Settings) (steps : List Step) :
    (after settings steps).world.cluster.Staffed :=
  after_of_changes (by simp [ClusterState.Staffed])
    (fun _ _ _ _ hchange hstaffed => hchange.staffed hstaffed) settings

/-! ## Commits of reachable clusters -/

/-- What storing a batch on a broker of the world makes of the marks of that broker. -/
def Stores (broker : BrokerState) (group topic : String) (batch : List Progress)
    (marks : Table GroupPartition Mark) : Prop :=
  ∀ key : GroupPartition, marks[key]? =
    if key.group = group ∧ key.place.topic = topic ∧ key.place ∉ broker.commitCodes then
      (lastMark? batch key.place.partition).or broker.marks[key]?
    else broker.marks[key]?

theorem BrokerState.stores_storeAll (broker : BrokerState) (group topic : String)
    (batch : List Progress) :
    Stores broker group topic batch
      (broker.storeAll (OffsetCommit.request group topic batch)).marks := by
  rintro ⟨otherGroup, otherTopic, partition⟩
  by_cases hnames : group = otherGroup ∧ topic = otherTopic
  · obtain ⟨rfl, rfl⟩ := hnames
    have hstored := broker.storeAll_mark?_batch group topic batch partition
    unfold mark? at hstored
    rw [hstored]
    by_cases hrefused : TopicPartition.mk topic partition ∈ broker.commitCodes <;> simp [hrefused]
  · have hothers : ¬Names (OffsetCommit.request group topic batch) otherGroup otherTopic := by
      rintro ⟨hgroup, entry, hentry, htopic⟩
      obtain rfl := List.mem_singleton.mp hentry
      exact hnames ⟨hgroup, htopic⟩
    have hkept : (broker.storeAll (OffsetCommit.request group topic batch)).mark? otherGroup
        ⟨otherTopic, partition⟩ = broker.mark? otherGroup ⟨otherTopic, partition⟩ :=
      storeAll_mark?_of_not_names hothers broker
    unfold mark? at hkept
    rw [hkept, if_neg]
    rintro ⟨hgroup, htopic, -⟩
    exact hnames ⟨hgroup.symm, htopic.symm⟩

/-- What a commit does in every cluster that a session reaches. Without a broker it fails, and
an empty batch succeeds even if the coordinator is down. An outage of the coordinator fails any
other batch. In these cases nothing changes. Otherwise, whatever the answer, the coordinator
stores the marks that it does not refuse, and all else stays as it was. -/
theorem Session.commit_effect (settings : Settings) (steps : List Step) (group topic : String)
    (batch : List Progress) :
    let world := (after settings steps).world
    let run := (Commitment.commit World.clusterView group topic batch).runFrom world
    (world.cluster.brokers = ∅ →
      run = (.error (.connection .groupCoordinator Trouble.noBrokers.cause), world)) ∧
    (world.cluster.brokers ≠ ∅ → ∃ (id : Int32) (broker : BrokerState),
      world.cluster.coordinators[group]?.or world.cluster.brokers.minKey? = some id ∧
      world.cluster.brokers[id]? = some broker ∧
      (batch = [] → run = (.ok (), world)) ∧
      (batch ≠ [] → ∀ reason, broker.outage = some reason →
        run = (.error (.connection .commitRequest (Trouble.brokerDown id reason).cause), world)) ∧
      (batch ≠ [] → broker.outage = none → ∃ marks, Stores broker group topic batch marks ∧
        run = (broker.verdict topic batch,
          { world with
            cluster :=
              { world.cluster with
                brokers := world.cluster.brokers.insert id { broker with marks } } }))) := by
  intro world run
  have hstaffed : world.cluster.Staffed := after_staffed settings steps
  have hrun : run = _ := World.commit_run group topic batch world
  rcases hstaffed.coordinator group with ⟨hempty, hnone⟩ | ⟨hsome, id, broker, hid, hfound, hbroker⟩
  · rw [hnone] at hrun
    exact ⟨fun _ => hrun, fun hsome => absurd hempty hsome⟩
  · rw [hfound] at hrun
    refine ⟨fun hempty => absurd hempty hsome, fun _ => ⟨id, broker, hid, hbroker, ?_, ?_, ?_⟩⟩
    · rintro rfl
      exact hrun
    · intro hbatch reason hdown
      have hsent : batch.isEmpty = false := by simpa using hbatch
      simp only [hsent, Bool.false_eq_true, if_false, World.coordinator_commit_run hbroker,
        hdown, ClusterState.insert_same hbroker] at hrun
      exact hrun
    · intro hbatch hup
      have hsent : batch.isEmpty = false := by simpa using hbatch
      simp only [hsent, Bool.false_eq_true, if_false, World.coordinator_commit_run hbroker,
        hup, broker.acknowledged_commitResponse group topic hbatch] at hrun
      refine ⟨_, broker.stores_storeAll group topic batch, ?_⟩
      rw [hrun, ← BrokerState.storeAll_eq]

end ConsumerGroups.Simulated
