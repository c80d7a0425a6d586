import ConsumerGroups.Proofs.Simulated.Commits

/-! # Batches of commits

Committing two batches one after the other comes to committing them as one batch: a broker stores
entry by entry, and no commit changes what it refuses or how it answers. Commits that store nothing
in the same place may be made in either order.
-/

namespace ConsumerGroups.Simulated

open Message

/-- Commits that store no mark in the same place, because they are for different groups or topics,
or because no partition is in both batches. -/
def Apart (group topic : String) (batch : List Progress) (otherGroup otherTopic : String)
    (others : List Progress) : Prop :=
  group ≠ otherGroup ∨ topic ≠ otherTopic ∨
    ∀ record ∈ batch, ∀ other ∈ others, record.partition ≠ other.partition

/-- Where both commits could store a mark, one of them has none to store. -/
theorem Apart.eq_none {group topic otherGroup otherTopic : String} {batch others : List Progress}
    (hapart : Apart group topic batch otherGroup otherTopic others) {key : GroupPartition}
    (hone : key.group = group ∧ key.place.topic = topic)
    (htwo : key.group = otherGroup ∧ key.place.topic = otherTopic) :
    lastMark? batch key.place.partition = none ∨ lastMark? others key.place.partition = none := by
  rcases hapart with hgroup | htopic | hpartitions
  · exact absurd (hone.1.symm.trans htwo.1) hgroup
  · exact absurd (hone.2.symm.trans htwo.2) htopic
  · by_cases hmember : ∃ record ∈ batch, record.partition = key.place.partition
    · obtain ⟨record, hrecord, hpartition⟩ := hmember
      exact .inr (lastMark?_eq_none fun other hother hsame =>
        hpartitions record hrecord other hother (hpartition.trans hsame.symm))
    · exact .inl (lastMark?_eq_none fun record hrecord hsame =>
        hmember ⟨record, hrecord, hsame⟩)

/-! ## One broker -/

namespace BrokerState

/-- What a broker makes of a commit of a batch: what the sender reads of it, and the broker
afterwards. An empty batch is not sent. -/
def receive (broker : BrokerState) (id : Int32) (group topic : String) (batch : List Progress) :
    Except Failure Unit × BrokerState :=
  if batch.isEmpty then (.ok (), broker)
  else
    match broker.outage with
    | some reason =>
      (.error (.connection .commitRequest (Trouble.brokerDown id reason).cause), broker)
    | none =>
      (broker.verdict topic batch, broker.storeAll (OffsetCommit.request group topic batch))

variable (broker : BrokerState) (id : Int32) (group topic : String)

theorem storeAll_append (first second : List Progress) :
    broker.storeAll (OffsetCommit.request group topic (first ++ second)) =
      (broker.storeAll (OffsetCommit.request group topic first)).storeAll
        (OffsetCommit.request group topic second) := by
  simp [storeAll, OffsetCommit.request]

/-- The first record of both batches that is refused is one of the first batch, if there is one. -/
theorem verdict_append (first second : List Progress) :
    broker.verdict topic (first ++ second) =
      match broker.verdict topic first with
      | .error failure => .error failure
      | .ok () => broker.verdict topic second := by
  unfold verdict
  cases broker.mutesCommits with
  | true => rfl
  | false =>
      simp only [Bool.false_eq_true, if_false, List.find?_append]
      cases first.find? fun record =>
        decide (broker.commitCodes.getD ⟨topic, record.partition⟩ 0 ≠ 0) <;> rfl

theorem verdict_storeAll (request : OffsetCommit.Request) (batch : List Progress) :
    (broker.storeAll request).verdict topic batch = broker.verdict topic batch := by
  rw [storeAll_eq]
  rfl

theorem outage_storeAll (request : OffsetCommit.Request) :
    (broker.storeAll request).outage = broker.outage := by
  rw [storeAll_eq]

/-- A broker that is not down stores what is sent. Of an empty batch there is nothing to store. -/
theorem receive_snd (batch : List Progress) :
    (broker.receive id group topic batch).2 =
      if broker.outage = none then broker.storeAll (OffsetCommit.request group topic batch)
      else broker := by
  unfold receive
  cases batch with
  | nil => simp [storeAll, OffsetCommit.request]
  | cons record rest => cases broker.outage <;> simp

/-- Commits do not change what is answered to a commit. -/
theorem receive_fst_receive (batch others : List Progress) (otherId : Int32)
    (otherGroup otherTopic : String) :
    ((broker.receive otherId otherGroup otherTopic others).2.receive id group topic batch).1 =
      (broker.receive id group topic batch).1 := by
  rw [receive_snd]
  split
  · unfold receive
    rw [outage_storeAll, verdict_storeAll]
    cases broker.outage <;> split <;> rfl
  · rfl

/-- A broker makes of two batches in one what it makes of them in turn. The first failure is that of
both. -/
theorem receive_append (first second : List Progress) :
    let one := broker.receive id group topic first
    let two := one.2.receive id group topic second
    broker.receive id group topic (first ++ second) =
      (match one.1 with
        | .error failure => .error failure
        | .ok () => two.1, two.2) := by
  intro one two
  apply Prod.ext
  · have hsecond : two.1 = (broker.receive id group topic second).1 :=
      broker.receive_fst_receive id group topic second first id group topic
    dsimp only
    rw [hsecond]
    cases first with
    | nil => rfl
    | cons record rest =>
        dsimp only [one]
        unfold receive
        cases broker.outage with
        | some reason => rfl
        | none =>
            cases second with
            | nil =>
                rw [List.append_nil]
                cases broker.verdict topic (record :: rest) <;> rfl
            | cons next others => exact broker.verdict_append topic (record :: rest) _
  · dsimp only [two, one]
    simp only [receive_snd]
    split
    next hup => rw [outage_storeAll, if_pos hup, storeAll_append]
    next => rfl

/-- Marks that are stored apart are the same in either order. -/
theorem marks_storeAll_comm {batch others : List Progress} {otherGroup otherTopic : String}
    (hapart : Apart group topic batch otherGroup otherTopic others) :
    ((broker.storeAll (OffsetCommit.request group topic batch)).storeAll
        (OffsetCommit.request otherGroup otherTopic others)).marks =
      ((broker.storeAll (OffsetCommit.request otherGroup otherTopic others)).storeAll
        (OffsetCommit.request group topic batch)).marks := by
  apply Std.ExtTreeMap.ext_getElem?
  intro key
  rw [stores_storeAll _ otherGroup otherTopic others key, stores_storeAll _ group topic batch key,
    stores_storeAll _ group topic batch key, stores_storeAll _ otherGroup otherTopic others key,
    storeAll_commitCodes, storeAll_commitCodes]
  by_cases hone : key.group = group ∧ key.place.topic = topic ∧ key.place ∉ broker.commitCodes
  · by_cases htwo : key.group = otherGroup ∧ key.place.topic = otherTopic ∧
        key.place ∉ broker.commitCodes
    · simp only [if_pos htwo, if_pos hone]
      rcases hapart.eq_none ⟨hone.1, hone.2.1⟩ ⟨htwo.1, htwo.2.1⟩ with hnone | hnone <;>
        rw [hnone, Option.none_or, Option.none_or]
    · simp only [if_neg htwo]
  · simp only [if_neg hone]

theorem storeAll_comm {batch others : List Progress} {otherGroup otherTopic : String}
    (hapart : Apart group topic batch otherGroup otherTopic others) :
    (broker.storeAll (OffsetCommit.request group topic batch)).storeAll
        (OffsetCommit.request otherGroup otherTopic others) =
      (broker.storeAll (OffsetCommit.request otherGroup otherTopic others)).storeAll
        (OffsetCommit.request group topic batch) := by
  -- All but the marks is that of the broker at first.
  rw [storeAll_eq (broker.storeAll (OffsetCommit.request group topic batch)),
    broker.marks_storeAll_comm group topic hapart,
    storeAll_eq (broker.storeAll (OffsetCommit.request otherGroup otherTopic others)),
    storeAll_eq broker (OffsetCommit.request group topic batch),
    storeAll_eq broker (OffsetCommit.request otherGroup otherTopic others)]

theorem receive_comm {batch others : List Progress} {otherGroup otherTopic : String}
    (hapart : Apart group topic batch otherGroup otherTopic others) :
    ((broker.receive id group topic batch).2.receive id otherGroup otherTopic others).2 =
      ((broker.receive id otherGroup otherTopic others).2.receive id group topic batch).2 := by
  simp only [receive_snd]
  split
  next hup => simp only [outage_storeAll, hup, if_true, storeAll_comm broker _ _ hapart]
  next => rfl

end BrokerState

/-! ## The cluster that a broker is part of -/

namespace ClusterState

/-- The cluster with another state of one of its brokers. -/
def put (cluster : ClusterState) (id : Int32) (changed : BrokerState) : ClusterState :=
  { cluster with brokers := cluster.brokers.insert id changed }

variable {cluster : ClusterState} {id : Int32}

theorem put_get (cluster : ClusterState) (id : Int32) (changed : BrokerState) (other : Int32) :
    (cluster.put id changed).brokers[other]? =
      if id = other then some changed else cluster.brokers[other]? := by
  unfold put
  rw [Std.ExtTreeMap.getElem?_insert]
  simp only [Std.LawfulEqOrd.compare_eq_iff_eq]

theorem put_self (cluster : ClusterState) (id : Int32) (changed : BrokerState) :
    (cluster.put id changed).brokers[id]? = some changed :=
  (put_get cluster id changed id).trans (if_pos rfl)

theorem put_other {other : Int32} (hne : id ≠ other) (cluster : ClusterState)
    (changed : BrokerState) : (cluster.put id changed).brokers[other]? = cluster.brokers[other]? :=
  (put_get cluster id changed other).trans (if_neg hne)

theorem put_put (cluster : ClusterState) (id : Int32) (first second : BrokerState) :
    (cluster.put id first).put id second = cluster.put id second := by
  have hbrokers : ((cluster.put id first).put id second).brokers =
      (cluster.put id second).brokers := by
    apply Std.ExtTreeMap.ext_getElem?
    intro other
    rw [put_get, put_get, put_get]
    split <;> rfl
  exact congrArg (fun brokers => { cluster with brokers }) hbrokers

theorem put_comm {other : Int32} (hne : id ≠ other) (cluster : ClusterState)
    (first second : BrokerState) :
    (cluster.put id first).put other second = (cluster.put other second).put id first := by
  have hbrokers : ((cluster.put id first).put other second).brokers =
      ((cluster.put other second).put id first).brokers := by
    apply Std.ExtTreeMap.ext_getElem?
    intro key
    rw [put_get, put_get, put_get, put_get]
    by_cases hid : id = key
    · subst hid
      simp [Ne.symm hne]
    · simp [hid]
  exact congrArg (fun brokers => { cluster with brokers }) hbrokers

/-- The coordinators are named by the cluster, or by the identifiers of its brokers, so that they
stay whatever becomes of a broker. -/
theorem coordinator_put {broker : BrokerState} (hbroker : cluster.brokers[id]? = some broker)
    (changed : BrokerState) (group : String) :
    (cluster.put id changed).coordinator group = cluster.coordinator group := by
  have hmember : id ∈ cluster.brokers := by
    rw [Std.ExtTreeMap.mem_iff_isSome_getElem?, hbroker]
    rfl
  have hnamed : (cluster.put id changed).coordinators = cluster.coordinators := rfl
  refine coordinator_congr hnamed (fun other => ?_) group
  unfold put
  rw [Std.ExtTreeMap.mem_insert, Std.LawfulEqOrd.compare_eq_iff_eq]
  exact ⟨fun hother => hother.elim (fun hid => hid ▸ hmember) fun hother => hother, .inr⟩

/-- A coordinator that is found is one of the brokers. -/
theorem exists_broker_of_coordinator {group : String}
    (hfound : cluster.coordinator group = .ok id) :
    ∃ broker, cluster.brokers[id]? = some broker := by
  unfold coordinator at hfound
  split at hfound
  · unfold checkBroker at hfound
    split at hfound
    next hmember =>
      cases hfound
      exact Option.isSome_iff_exists.mp (Std.ExtTreeMap.mem_iff_isSome_getElem?.mp hmember)
    next => cases hfound
  · cases hfound

end ClusterState

/-! ## Commits over the cluster -/

namespace World

/-- What a commit does if the coordinator of the group is found, and is the given broker. -/
theorem commit_of_coordinator {world : World} {group : String} {id : Int32} {broker : BrokerState}
    (hfound : world.cluster.coordinator group = .ok id)
    (hbroker : world.cluster.brokers[id]? = some broker) (topic : String) (batch : List Progress) :
    (Commitment.commit clusterView group topic batch).runFrom world =
      ((broker.receive id group topic batch).1,
        { world with
          cluster := world.cluster.put id (broker.receive id group topic batch).2 }) := by
  have hkept : { world with cluster := world.cluster.put id broker } = world := by
    rw [ClusterState.put, ClusterState.insert_same hbroker]
  rw [commit_run, hfound]
  unfold BrokerState.receive
  dsimp only
  split
  next => rw [hkept]
  next hsent =>
    have hbatch : batch ≠ [] := by simpa using hsent
    rw [coordinator_commit_run hbroker]
    cases broker.outage with
    | some reason => rfl
    | none => exact congrArg (Prod.mk · _) (broker.acknowledged_commitResponse group topic hbatch)

/-- A coordinator that is not found fails every commit, and nothing changes. -/
theorem commit_of_no_coordinator {world : World} {group : String} {cause : Cause}
    (hnone : world.cluster.coordinator group = .error cause) (topic : String)
    (batch : List Progress) :
    (Commitment.commit clusterView group topic batch).runFrom world =
      (.error (.connection .groupCoordinator cause), world) := by
  rw [commit_run, hnone]

/-- Whatever is committed, the coordinators of all groups stay. -/
theorem commit_coordinator (world : World) (group topic : String) (batch : List Progress)
    (other : String) :
    ((Commitment.commit clusterView group topic batch).runFrom world).2.cluster.coordinator other =
      world.cluster.coordinator other := by
  cases hfound : world.cluster.coordinator group with
  | error cause => rw [commit_of_no_coordinator hfound]
  | ok id =>
      obtain ⟨broker, hbroker⟩ := ClusterState.exists_broker_of_coordinator hfound
      rw [commit_of_coordinator hfound hbroker]
      exact ClusterState.coordinator_put hbroker _ other

/-- What a commit does after a change of a broker of the world. -/
theorem commit_of_put {world : World} {id other : Int32} {broker changed reached : BrokerState}
    (hbroker : world.cluster.brokers[id]? = some broker) {group : String}
    (hfound : world.cluster.coordinator group = .ok other)
    (hreached : (world.cluster.put id changed).brokers[other]? = some reached) (topic : String)
    (batch : List Progress) :
    (Commitment.commit clusterView group topic batch).runFrom
        { world with cluster := world.cluster.put id changed } =
      ((reached.receive other group topic batch).1,
        { world with
          cluster :=
            (world.cluster.put id changed).put other
              (reached.receive other group topic batch).2 }) :=
  commit_of_coordinator ((ClusterState.coordinator_put hbroker changed group).trans hfound) hreached
    topic batch

/-- Committing two batches one after the other does to the world what committing them as one does,
and the first failure is that of both. -/
theorem commit_append (world : World) (group topic : String) (first second : List Progress) :
    let one := (Commitment.commit clusterView group topic first).runFrom world
    let two := (Commitment.commit clusterView group topic second).runFrom one.2
    (Commitment.commit clusterView group topic (first ++ second)).runFrom world =
        (match one.1 with
          | .error failure => .error failure
          | .ok () => two.1, two.2) ∧
      two.1 = ((Commitment.commit clusterView group topic second).runFrom world).1 := by
  intro one two
  dsimp only [two, one]
  cases hfound : world.cluster.coordinator group with
  | error cause => simp only [commit_of_no_coordinator hfound, and_self]
  | ok id =>
      obtain ⟨broker, hbroker⟩ := ClusterState.exists_broker_of_coordinator hfound
      simp only [commit_of_coordinator hfound hbroker,
        commit_of_put hbroker hfound (ClusterState.put_self ..), ClusterState.put_put,
        broker.receive_append, true_and]
      exact broker.receive_fst_receive id group topic second first id group topic

/-- Commits that store their marks apart leave the same world in either order. -/
theorem commit_comm (world : World) {group topic : String} {batch : List Progress}
    {otherGroup otherTopic : String} {others : List Progress}
    (hapart : Apart group topic batch otherGroup otherTopic others) :
    ((Commitment.commit clusterView otherGroup otherTopic others).runFrom
        ((Commitment.commit clusterView group topic batch).runFrom world).2).2 =
      ((Commitment.commit clusterView group topic batch).runFrom
        ((Commitment.commit clusterView otherGroup otherTopic others).runFrom world).2).2 := by
  cases hfound : world.cluster.coordinator group with
  | error cause =>
      have hafter := (commit_coordinator world otherGroup otherTopic others group).trans hfound
      rw [commit_of_no_coordinator hfound, commit_of_no_coordinator hafter]
  | ok id =>
      cases hother : world.cluster.coordinator otherGroup with
      | error cause =>
          have hafter := (commit_coordinator world group topic batch otherGroup).trans hother
          rw [commit_of_no_coordinator hother, commit_of_no_coordinator hafter]
      | ok otherId =>
          obtain ⟨broker, hbroker⟩ := ClusterState.exists_broker_of_coordinator hfound
          obtain ⟨otherBroker, hotherBroker⟩ := ClusterState.exists_broker_of_coordinator hother
          rw [commit_of_coordinator hfound hbroker, commit_of_coordinator hother hotherBroker]
          by_cases hid : id = otherId
          · -- Both batches go to one broker, which stores them in either order.
            subst hid
            obtain rfl : broker = otherBroker := Option.some.inj (hbroker.symm.trans hotherBroker)
            simp only [commit_of_put hbroker hother (ClusterState.put_self ..),
              commit_of_put hbroker hfound (ClusterState.put_self ..), ClusterState.put_put,
              broker.receive_comm id group topic hapart]
          · have hkept := fun changed =>
              (ClusterState.put_other hid world.cluster changed).trans hotherBroker
            have hkept' := fun changed =>
              (ClusterState.put_other (Ne.symm hid) world.cluster changed).trans hbroker
            rw [commit_of_put hbroker hother (hkept _),
              commit_of_put hotherBroker hfound (hkept' _), ClusterState.put_comm hid]

/-- A commit leaves on its coordinator, if that is not down, the last marks of its batch, but for
the partitions that are refused. -/
theorem markOn?_commit {world : World} {group : String} {id : Int32} {broker : BrokerState}
    (hfound : world.cluster.coordinator group = .ok id)
    (hbroker : world.cluster.brokers[id]? = some broker) (hup : broker.outage = none)
    (topic : String) (batch : List Progress) (partition : Int32) :
    ((Commitment.commit clusterView group topic batch).runFrom world).2.cluster.markOn? id group
        ⟨topic, partition⟩ =
      if TopicPartition.mk topic partition ∈ broker.commitCodes then
        broker.mark? group ⟨topic, partition⟩
      else (lastMark? batch partition).or (broker.mark? group ⟨topic, partition⟩) := by
  rw [commit_of_coordinator hfound hbroker, ← broker.storeAll_mark?_batch]
  simp only [ClusterState.put, ClusterState.markOn?_insert, if_true, BrokerState.receive_snd, hup]

/-- How commits compose in any world, with whatever outages, refusals and emptied answers. One batch
leaves what its two parts leave in turn, even if the first of them fails, and is answered with the
first failure of the two. The answer to the second part is the same with and without the first.
Batches of different groups or topics, or without a partition in common, may be committed in either
order. What is left behind are the last marks of the batches, but for the refused partitions. -/
theorem commits_compose (world : World) :
    (∀ (group topic : String) (first second : List Progress),
      let one := (Commitment.commit clusterView group topic first).runFrom world
      let two := (Commitment.commit clusterView group topic second).runFrom one.2
      (Commitment.commit clusterView group topic (first ++ second)).runFrom world =
          (match one.1 with
            | .error failure => .error failure
            | .ok () => two.1, two.2) ∧
        two.1 = ((Commitment.commit clusterView group topic second).runFrom world).1) ∧
    (∀ (group topic : String) (batch : List Progress) (otherGroup otherTopic : String)
      (others : List Progress), Apart group topic batch otherGroup otherTopic others →
      ((Commitment.commit clusterView otherGroup otherTopic others).runFrom
          ((Commitment.commit clusterView group topic batch).runFrom world).2).2 =
        ((Commitment.commit clusterView group topic batch).runFrom
          ((Commitment.commit clusterView otherGroup otherTopic others).runFrom world).2).2) ∧
    ∀ (group : String) (id : Int32) (broker : BrokerState),
      world.cluster.coordinator group = .ok id → world.cluster.brokers[id]? = some broker →
      broker.outage = none → ∀ (topic : String) (batch : List Progress) (partition : Int32),
      ((Commitment.commit clusterView group topic batch).runFrom world).2.cluster.markOn? id group
          ⟨topic, partition⟩ =
        if TopicPartition.mk topic partition ∈ broker.commitCodes then
          broker.mark? group ⟨topic, partition⟩
        else (lastMark? batch partition).or (broker.mark? group ⟨topic, partition⟩) :=
  ⟨fun group topic first second => commit_append world group topic first second,
    fun _ _ _ _ _ _ hapart => commit_comm world hapart,
    fun _ _ _ hfound hbroker hup => markOn?_commit hfound hbroker hup⟩

/-- The first part of a batch is refused in one partition, and shares another with the second. -/
theorem commits_compose_past_refusal :
    let world := (Session.after {} [.editCluster (.assignCoordinator "g" 1),
      .editBroker 1 (.refuseCommit ⟨"t", 0⟩ 29)]).world
    let first := [Progress.toCommit 0 ⟨5, "a"⟩, Progress.toCommit 1 ⟨6, "b"⟩]
    let second := [Progress.toCommit 1 ⟨7, "c"⟩]
    let others := [Progress.toCommit 2 ⟨8, "d"⟩]
    let refused := Failure.remote (.commitRefused 0) 29
    let one := (Commitment.commit clusterView "g" "t" first).runFrom world
    let two := (Commitment.commit clusterView "g" "t" second).runFrom one.2
    one.1 = .error refused ∧ two.1 = .ok () ∧
      (Commitment.commit clusterView "g" "t" (first ++ second)).runFrom world =
        (.error refused, two.2) ∧
      two.2.cluster.markOn? 1 "g" ⟨"t", 1⟩ = some ⟨7, "c"⟩ ∧
      Apart "g" "t" first "g" "t" others ∧
      ((Commitment.commit clusterView "g" "t" others).runFrom one.2).2 =
        ((Commitment.commit clusterView "g" "t" first).runFrom
          ((Commitment.commit clusterView "g" "t" others).runFrom world).2).2 := by
  intro world first second others refused one two
  obtain ⟨happend, hcomm, hmarks⟩ := commits_compose world
  obtain ⟨hboth, hanswer⟩ := happend "g" "t" first second
  have hone : one.1 = .error refused := by cbv
  have hjoined : (Commitment.commit clusterView "g" "t" (first ++ second)).runFrom world =
      (.error refused, two.2) := by
    rw [hboth, show ((Commitment.commit clusterView "g" "t" first).runFrom world).1 =
      .error refused from hone]
  have hfound : world.cluster.coordinator "g" = .ok 1 := by cbv
  obtain ⟨broker, hbroker⟩ := ClusterState.exists_broker_of_coordinator hfound
  have hfaults : world.cluster.brokers[(1 : Int32)]?.map (fun broker =>
      (broker.outage, decide (TopicPartition.mk "t" 1 ∈ broker.commitCodes))) =
      some (none, false) := by cbv
  rw [hbroker, Option.map_some, Option.some_inj, Prod.mk.injEq, decide_eq_false_iff_not] at hfaults
  have hmark := hmarks "g" 1 broker hfound hbroker hfaults.1 "t" (first ++ second) 1
  rw [hjoined, if_neg hfaults.2] at hmark
  have hapart : Apart "g" "t" first "g" "t" others := .inr (.inr (by decide))
  exact ⟨hone, hanswer.trans (by cbv), hjoined, hmark, hapart, hcomm _ _ _ _ _ _ hapart⟩

end World

end ConsumerGroups.Simulated
