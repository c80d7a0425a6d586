import ConsumerGroups.Proofs.Simulated.Footprints

/-! # What queries cost

A survey that finds all leaders sends two requests to each of them, or one if the first fails at
once, whatever becomes of the requests to the others. No other query sends a request for offsets,
but for the one that starts with a survey.
-/

namespace ConsumerGroups.Simulated

open Message Range Results

/-! ## Surveys -/

/-- How many requests a survey sends to a broker that it asks: two, unless the first fails at
once. -/
def BrokerState.surveyRequests (broker : BrokerState) : Nat :=
  if broker.outage.isSome ∧ broker.delay = 0 then 1 else 2

namespace ClusterState

/-- The leaders of the listed partitions of a topic, if all of them are found. -/
def leadersOf (cluster : ClusterState) (topic : String) : Reply (List Int32) := do
  let partitions ← cluster.partitions topic
  partitions.mapM fun partition => cluster.leader ⟨topic, partition⟩

/-- How many requests a broker is sent if it is asked. -/
def requestsAt (cluster : ClusterState) (id : Int32) : Nat :=
  (cluster.brokers[id]?.map BrokerState.surveyRequests).getD 0

/-- How many requests a survey sends to each broker. -/
def surveyRequests (cluster : ClusterState) (topic : String) (id : Int32) : Nat :=
  match cluster.leadersOf topic with
  | .ok leaders => if id ∈ leaders then cluster.requestsAt id else 0
  | .error _ => 0

theorem requestsAt_charge (cluster : ClusterState) (requests : Int32 → Nat) (id : Int32) :
    (cluster.charge requests).requestsAt id = cluster.requestsAt id := by
  unfold requestsAt
  rw [getElem?_charge]
  cases cluster.brokers[id]? <;> rfl

end ClusterState

namespace World

/-- A broker that is asked for both ends counts one request or two. -/
theorem askEnds_charge (topic : String) (asked : List Int32) (id : Int32) (world : World) :
    ((askEnds topic asked (World.broker id)).run world).2 =
      world.charge fun other => if other = id then world.cluster.requestsAt id else 0 := by
  have htwo : (world.charge (requestTo id)).charge (requestTo id) =
      world.charge fun other => if other = id then 2 else 0 := by
    simp only [charge, ClusterState.charge_charge, requestTo]
    congr 2
    funext other
    split <;> rfl
  have hsecond := congrArg Prod.snd (listOffsets_run_eq id ListOffsets.version
    (ListOffsets.request topic asked Boundary.newest.timestamp) (world.charge (requestTo id)))
  unfold askEnds ClusterState.requestsAt
  rw [bind_run, listOffsets_run_eq]
  unfold answerTo
  cases hbroker : world.cluster.brokers[id]? with
  | none =>
      change world.charge (requestTo id) = world.charge fun other => if other = id then 0 else 0
      simp only [ite_self]
      rw [charge_of_absent hbroker, charge, ClusterState.charge_zero]
  | some broker =>
      rcases broker with ⟨logs, marks, commitCodes, fetchCodes, fetchCode, hides, mutes, omitted,
        outage, delay, listCalls⟩
      -- Only an outage without a delay keeps the second request from being sent.
      cases outage with
      | none => cases delay <;> exact hsecond.trans htwo
      | some reason =>
          cases delay with
          | zero => rfl
          | succ delay => exact hsecond.trans htwo

/-- Brokers that are asked one after another count their own requests. -/
theorem asked_charge (topic : String) (asked : Int32 → List Int32) {ids : List Int32}
    (hnodup : ids.Nodup) (world : World) :
    ((ids.mapM fun id =>
        (World.broker id, ·) <$> askEnds topic (asked id) (World.broker id)).run world).2 =
      world.charge fun id => if id ∈ ids then world.cluster.requestsAt id else 0 := by
  induction ids generalizing world with
  | nil =>
      change world = world.charge fun _ => 0
      rw [charge, ClusterState.charge_zero]
  | cons id rest ih =>
      obtain ⟨hid, hrest⟩ := List.nodup_cons.mp hnodup
      rw [mapM_cons_run, map_run, askEnds_charge, ih hrest]
      simp only [charge, ClusterState.charge_charge, ClusterState.requestsAt_charge]
      congr 2
      funext other
      by_cases hother : other = id
      · simp [hother, hid]
      · simp [hother]

/-- Each leader is heard once, however many partitions it leads. -/
theorem hear_charge (topic : String) (partitions ids : List Int32) (world : World) :
    ((hear topic partitions (ids.map World.broker)).run world).2 =
      world.charge fun id => if id ∈ ids then world.cluster.requestsAt id else 0 := by
  have hfirsts : firstsBy Broker.id (ids.map World.broker) =
      (firstsBy (fun id => id) ids).map World.broker := firstsBy_map _ _
  have hnodup : (firstsBy (fun id : Int32 => id) ids).Nodup := by
    simpa using nodup_firstsBy (fun id : Int32 => id) ids
  have hmem (id : Int32) : id ∈ firstsBy (fun id => id) ids ↔ id ∈ ids := by
    refine ⟨mem_of_mem_firstsBy, fun hid => ?_⟩
    obtain ⟨first, hfirst, hsame⟩ : ∃ first ∈ firstsBy (fun id : Int32 => id) ids, first = id :=
      exists_mem_firstsBy hid
    exact hsame ▸ hfirst
  have hasked := asked_charge topic
    (fun id => ledBy id partitions ((ids.map World.broker).map Broker.id)) hnodup world
  simp only [hmem] at hasked
  rw [hear, hfirsts, List.mapM_map]
  exact hasked

/-- Leaders that are all there are found. -/
theorem findLeaders_of_ok {topic : String} {partitions ids : List Int32} {world : World}
    (hids : partitions.mapM (fun partition => world.cluster.leader ⟨topic, partition⟩) = .ok ids) :
    (findLeaders clusterView topic 0 partitions).runFrom world =
      (.ok (numbered 0 partitions (ids.map World.broker)), world) := by
  refine findLeaders_eq_ok.mpr ⟨_, ?_, rfl⟩
  have hall := congrArg (List.map (Except.map World.broker)) (mapM_eq_ok.mp hids)
  rw [lookups_run, List.map_map, Prod.mk.injEq]
  refine ⟨?_, rfl⟩
  simpa [Function.comp_def, Except.map] using hall

/-- A leader that is missing ends the search for leaders. -/
theorem findLeaders_of_error {topic : String} {partitions : List Int32} {world : World}
    {cause : Cause}
    (hcause : partitions.mapM (fun partition => world.cluster.leader ⟨topic, partition⟩) =
      .error cause) :
    ∃ failure, (findLeaders clusterView topic 0 partitions).runFrom world =
      (.error failure, world) := by
  obtain ⟨result, hrun, -⟩ := findLeaders_world topic 0 partitions world
  cases result with
  | error failure => exact ⟨failure, hrun⟩
  | ok leds =>
      -- All leaders would be there.
      obtain ⟨leaders, hlookups, -⟩ := findLeaders_eq_ok.mp hrun
      obtain ⟨-, ids, -, hids⟩ := lookups_eq_ok.mp hlookups
      have hok : partitions.mapM (fun partition => world.cluster.leader ⟨topic, partition⟩) =
          .ok ids := by
        have hall := List.forall₂_map_left_iff.mpr (List.forall₂_map_right_iff.mpr hids)
        rw [List.forall₂_eq_eq_eq] at hall
        exact mapM_eq_ok.mpr hall
      rw [hok] at hcause
      cases hcause

/-- A survey counts requests at the leaders of the topic, and changes nothing else. -/
theorem survey_charge (topic : String) (world : World) :
    ((survey clusterView topic).runFrom world).2 =
      world.charge (world.cluster.surveyRequests topic) := by
  have hnothing (requests : Int32 → Nat) (hnone : ∀ id, requests id = 0) :
      world = world.charge requests := by
    rw [funext hnone, charge, ClusterState.charge_zero]
  have hlisted : (clusterView.partitions topic).run world =
      (world.cluster.partitions topic, world) := rfl
  rw [survey_run, hlisted]
  cases hpartitions : world.cluster.partitions topic with
  | error cause =>
      refine hnothing _ fun id => ?_
      simp [ClusterState.surveyRequests, ClusterState.leadersOf, hpartitions, bind, Except.bind]
  | ok partitions =>
      cases hids : partitions.mapM (fun partition => world.cluster.leader ⟨topic, partition⟩) with
      | error cause =>
          obtain ⟨failure, hrun⟩ := findLeaders_of_error hids
          simp only [hrun]
          refine hnothing _ fun id => ?_
          simp [ClusterState.surveyRequests, ClusterState.leadersOf, hpartitions, hids, bind,
            Except.bind]
      | ok ids =>
          have hlength : (ids.map World.broker).length = partitions.length := by
            have := congrArg List.length (mapM_eq_ok.mp hids)
            simpa using this.symm
          simp only [findLeaders_of_ok hids, surveyShares_run topic hlength]
          rw [hear_charge]
          congr 1
          funext id
          simp [ClusterState.surveyRequests, ClusterState.leadersOf, hpartitions, hids, bind,
            Except.bind]

/-- The coordinator of a group is asked for marks, and nothing changes. -/
theorem fetch_unchanged (group topic : String) (partitions : List Int32) (world : World) :
    ((Commitment.fetch clusterView group topic partitions).runFrom world).2 = world := by
  have hfound : clusterView.coordinator group world =
      ((world.cluster.coordinator group).map World.coordinator, world) := rfl
  rw [Commitment.fetch, Errand.runFrom_bind, Errand.runFrom_await, hfound]
  cases world.cluster.coordinator group with
  | error cause => rfl
  | ok id =>
      have hasked : (World.coordinator id).fetch OffsetFetch.version
          (OffsetFetch.request group topic partitions) world =
            (world.fetchedFrom id (OffsetFetch.request group topic partitions), world) :=
        World.fetch_run id _ _ world
      simp only [Except.map, Except.mapError, Errand.runFrom_bind, Errand.runFrom_await, hasked]
      cases world.fetchedFrom id (OffsetFetch.request group topic partitions) <;> rfl

theorem progressOn_charge (group topic : String) (world : World) :
    ((Console.progressOn clusterView group topic).runFrom world).2 =
      world.charge (world.cluster.surveyRequests topic) := by
  have hsurvey := survey_charge topic world
  rw [Console.progressOn, Errand.runFrom_bind]
  rcases hrun : (survey clusterView topic).runFrom world with ⟨failure | ranges, reached⟩
  · rw [hrun] at hsurvey
    exact hsurvey
  · rw [hrun] at hsurvey
    dsimp only at hsurvey ⊢
    split
    · exact hsurvey
    · have hfetch := fetch_unchanged group topic (ranges.map (·.partition)) reached
      rw [Errand.runFrom_bind]
      rcases hmarks : (Commitment.fetch clusterView group topic
        (ranges.map (·.partition))).runFrom reached with ⟨failure | marks, last⟩ <;>
      · rw [hmarks] at hfetch
        simp only [hmarks]
        exact hfetch.trans hsurvey

end World

/-! ## Queries -/

/-- The calls of the library that ask and change nothing. -/
inductive Query
  | progress (group topic : String)
  | owners (group topic : String)
  | ownersByGroup (topic : String)
  | survey (topic : String)
  | fetchMarks (group topic : String) (partitions : List Int32)
  | scan (chroot group topic : String)
  | scanGroups (chroot topic : String)

namespace Query

def call : Query → Call
  | progress group topic => .console (.progress group topic)
  | owners group topic => .console (.owners group topic)
  | ownersByGroup topic => .console (.ownersByGroup topic)
  | survey topic => .direct (.survey topic)
  | fetchMarks group topic partitions => .direct (.fetchMarks group topic partitions)
  | scan chroot group topic => .direct (.scan chroot group topic)
  | scanGroups chroot topic => .direct (.scanGroups chroot topic)

/-- What a query leaves behind: what the console needs for it, and the requests of a survey if the
brokers are reached. -/
def footprint (session : Session) : Query → Footprint
  | progress _ topic =>
    { cluster := true
      requests := fun id =>
        if session.clusterReached.isOk then session.world.cluster.surveyRequests topic id else 0 }
  | owners _ _ => { registry := true }
  | ownersByGroup _ => { registry := true }
  | survey topic => { requests := session.world.cluster.surveyRequests topic }
  | fetchMarks _ _ _ => {}
  | scan _ _ _ => {}
  | scanGroups _ _ => {}

end Query

/-! ## Effects -/

namespace Session

/-- What follows on a connection starts in the session in which the connection was reached. -/
theorem onConsole_bind_run {α β : Type} (reach : LinkedErrand World α)
    (next : α → LinkedErrand World β) (session : Session) :
    (onConsole (ExceptT.run (reach >>= next))).run session =
      match (onConsole (ExceptT.run reach)).run session with
      | (.ok value, reached) => (onConsole (ExceptT.run (next value))).run reached
      | (.error failure, reached) => (.error failure, reached) := by
  have hbind := LinkedErrand.runFrom_bind reach next session.console session.world
  have hstart {γ : Type} (errand : LinkedErrand World γ) (session : Session) :
      (onConsole (ExceptT.run errand)).run session =
        ((errand.runFrom session.console session.world).1.1,
          { session with
            console := (errand.runFrom session.console session.world).1.2
            world := (errand.runFrom session.console session.world).2 }) := rfl
  rw [hstart, hstart, hbind]
  rcases reach.runFrom session.console session.world with ⟨⟨failure | value, links⟩, world⟩ <;> rfl

theorem eq_clusterView {session : Session} (hwired : session.Wired) {cluster : Cluster World}
    (hreached : session.clusterReached = .ok cluster) : cluster = World.clusterView := by
  unfold clusterReached at hreached
  cases haccess : session.console.slots.clusterAccess with
  | closed => simp [haccess] at hreached
  | connected connected =>
      simp only [haccess, Except.ok.injEq] at hreached
      exact hreached ▸ hwired.console.cluster connected (Slots.access_eq_connected.mp haccess).2
  | empty =>
      simp only [haccess] at hreached
      split at hreached <;> cases hreached
      rfl

theorem eq_registryView {session : Session} (hwired : session.Wired) {registry : Registry World}
    (hreached : session.registryReached = .ok registry) : registry = World.registryView := by
  unfold registryReached at hreached
  cases haccess : session.console.slots.registryAccess with
  | closed => simp [haccess] at hreached
  | connected connected =>
      simp only [haccess, Except.ok.injEq] at hreached
      exact hreached ▸ hwired.console.registry connected (Slots.access_eq_connected.mp haccess).2
  | empty =>
      simp only [haccess] at hreached
      split at hreached <;> cases hreached
      rfl

theorem Wired.connectCluster {session : Session} (hwired : session.Wired) :
    session.connectCluster.Wired := by
  unfold Session.connectCluster
  split
  · split
    · exact hwired
    · refine ⟨⟨hwired.console.dialer, ?_, hwired.console.registry⟩, hwired.links⟩
      rintro _ ⟨⟩
      rfl
  · exact hwired

theorem Wired.connectRegistry {session : Session} (hwired : session.Wired) :
    session.connectRegistry.Wired := by
  unfold Session.connectRegistry
  split
  · split
    · exact hwired
    · refine ⟨⟨hwired.console.dialer, hwired.console.cluster, ?_⟩, hwired.links⟩
      rintro _ ⟨⟩
      rfl
  · exact hwired

theorem cluster_connectCluster (session : Session) :
    session.connectCluster.world.cluster = session.world.cluster := by
  rcases session with ⟨⟨_, _, _, _, refusing⟩, ⟨_, _, ⟨cluster, registry, closed⟩⟩, _⟩
  cases closed <;> cases cluster <;> cases refusing <;> rfl

theorem settings_connectRegistry (session : Session) :
    session.connectRegistry.console.settings = session.console.settings := by
  rcases session with ⟨⟨_, _, _, _, refusing⟩, ⟨_, _, ⟨cluster, registry, closed⟩⟩, _⟩
  cases closed <;> cases registry <;> cases refusing <;> rfl

/-- A task over the cluster of the console changes what it changes over the world's. -/
theorem overCluster_run {α : Type} {session : Session} (hwired : session.Wired)
    (task : Cluster World → Errand World α) :
    (onConsole (ExceptT.run (Links.reachCluster >>= fun cluster =>
        LinkedErrand.ofTask (task cluster)))).run session =
      match session.clusterReached with
      | .ok _ => (onWorld (task World.clusterView).run).run session.connectCluster
      | .error failure => (.error failure, session.connectCluster) := by
  rw [onConsole_bind_run, run_reachCluster hwired.console.dialer]
  cases hreached : session.clusterReached with
  | error failure => rfl
  | ok cluster =>
      obtain rfl := eq_clusterView hwired hreached
      rfl

/-- A task over the registry of the console changes what it changes over the world's. -/
theorem overRegistry_run {α : Type} {session : Session} (hwired : session.Wired)
    (task : Registry World → String → Errand World α) :
    (onConsole (ExceptT.run (Links.reachRegistry >>= fun registry =>
        Console.chroot >>= fun chroot => LinkedErrand.ofTask (task registry chroot)))).run session =
      match session.registryReached with
      | .ok _ =>
        (onWorld (task World.registryView session.console.settings.registry.chroot).run).run
          session.connectRegistry
      | .error failure => (.error failure, session.connectRegistry) := by
  rw [onConsole_bind_run, run_reachRegistry hwired.console.dialer]
  cases hreached : session.registryReached with
  | error failure => rfl
  | ok registry =>
      obtain rfl := eq_registryView hwired hreached
      dsimp only
      rw [onConsole_bind_run, ← session.settings_connectRegistry]
      rfl

theorem touch_cluster (session : Session) (requests : Int32 → Nat) :
    session.touch { cluster := true, requests } = session.connectCluster.charge requests :=
  session.connectCluster_charge requests

theorem touch_registry (session : Session) :
    session.touch { registry := true } = session.connectRegistry := by
  change (session.charge fun _ => 0).connectRegistry = session.connectRegistry
  rw [charge, World.charge, ClusterState.charge_zero]

/-- A query leaves its footprint, and nothing else, whether it succeeds or fails. -/
theorem query_touches {session : Session} (hwired : session.Wired) (query : Query) :
    ((step (.call query.call)).run session).2 = session.touch (query.footprint session) := by
  have hlookup {α : Type} {task : Registry World → String → Errand World α}
      (hkeeps : ∀ chroot, ((task World.registryView chroot).runFrom
        session.connectRegistry.world).2 = session.connectRegistry.world) :
      ((onConsole (ExceptT.run (Links.reachRegistry >>= fun registry =>
        Console.chroot >>= fun chroot =>
          LinkedErrand.ofTask (task registry chroot)))).run session).2 =
        session.touch { registry := true } := by
    rw [overRegistry_run hwired, touch_registry]
    cases session.registryReached with
    | error failure => rfl
    | ok registry =>
        exact congrArg (fun world => { session.connectRegistry with world })
          (hkeeps session.console.settings.registry.chroot)
  cases query with
  | progress group topic =>
      have hstep : ((step (.call (Query.progress group topic).call)).run session).2 =
          ((onConsole (ExceptT.run (Links.reachCluster >>= fun cluster =>
            LinkedErrand.ofTask (Console.progressOn cluster group topic)))).run session).2 := rfl
      rw [hstep, overCluster_run hwired, Query.footprint, touch_cluster]
      cases hreached : session.clusterReached with
      | error failure => exact (touch_zero session.connectCluster).symm
      | ok cluster =>
          have hcharge := World.progressOn_charge group topic session.connectCluster.world
          rw [session.cluster_connectCluster] at hcharge
          exact congrArg (fun world => { session.connectCluster with world }) hcharge
  | owners group topic =>
      exact hlookup fun chroot =>
        Ownership.keeps_scan (World.registryView_queriesKeep id) chroot group topic _
  | ownersByGroup topic =>
      exact hlookup fun chroot =>
        Ownership.keeps_scanGroups (World.registryView_queriesKeep id) chroot topic _
  | survey topic =>
      exact congrArg (fun world => { session with world })
        (World.survey_charge topic session.world)
  | fetchMarks group topic partitions =>
      refine Eq.trans ?_ session.touch_zero.symm
      exact congrArg (fun world => { session with world })
        (World.fetch_unchanged group topic partitions session.world)
  | scan chroot group topic =>
      refine Eq.trans ?_ session.touch_zero.symm
      exact congrArg (fun world => { session with world })
        (Ownership.keeps_scan (World.registryView_queriesKeep id) chroot group topic session.world)
  | scanGroups chroot topic =>
      refine Eq.trans ?_ session.touch_zero.symm
      exact congrArg (fun world => { session with world })
        (Ownership.keeps_scanGroups (World.registryView_queriesKeep id) chroot topic session.world)

end Session

end ConsumerGroups.Simulated
