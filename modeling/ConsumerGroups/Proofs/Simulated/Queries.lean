import ConsumerGroups.Proofs.Keeping
import ConsumerGroups.Proofs.Range.Survey
import ConsumerGroups.Commitment
import ConsumerGroups.Simulated.World

/-! # Queries of the simulated world

A query changes nothing but the count of the requests for offsets. So a cluster without its
counts is the same before and after, and it is all that the answers depend on.
-/

namespace ConsumerGroups.Simulated

open Message Range Results

/-- A broker but for the count of its requests. -/
def BrokerState.quiet (broker : BrokerState) : BrokerState :=
  { broker with listCalls := 0 }

/-- Brokers alike but for their counts are alike in all that the counts are no part of. -/
theorem BrokerState.congr_quiet {γ : Type} {f : BrokerState → γ}
    (hf : ∀ broker, f broker.quiet = f broker) {first second : BrokerState}
    (hquiet : first.quiet = second.quiet) : f first = f second := by
  rw [← hf first, hquiet, hf]

/-- A cluster but for the counts of its brokers' requests. -/
def ClusterState.quiet (cluster : ClusterState) : ClusterState :=
  { cluster with brokers := cluster.brokers.map fun _ broker => broker.quiet }

namespace ClusterState

theorem getElem?_quiet (cluster : ClusterState) (id : Int32) :
    cluster.quiet.brokers[id]? = cluster.brokers[id]?.map BrokerState.quiet := by
  simp [quiet, Std.ExtTreeMap.getElem?_map]

theorem mem_quiet (cluster : ClusterState) (id : Int32) :
    id ∈ cluster.quiet.brokers ↔ id ∈ cluster.brokers := by
  simp [quiet, Std.ExtTreeMap.mem_map]

/-- A broker whose count alone changes leaves the rest of the cluster as it is. -/
theorem quiet_insert {cluster : ClusterState} {id : Int32} {broker changed : BrokerState}
    (hbroker : cluster.brokers[id]? = some broker) (hquiet : changed.quiet = broker.quiet) :
    { cluster with brokers := cluster.brokers.insert id changed }.quiet = cluster.quiet := by
  have hbrokers : (cluster.brokers.insert id changed).map (fun _ broker => broker.quiet) =
      cluster.brokers.map fun _ broker => broker.quiet := by
    apply Std.ExtTreeMap.ext_getElem?
    intro other
    rw [Std.ExtTreeMap.getElem?_map, Std.ExtTreeMap.getElem?_map, Std.ExtTreeMap.getElem?_insert]
    by_cases hother : compare id other = .eq
    · obtain rfl := Std.LawfulEqOrd.eq_of_compare hother
      simp [hbroker, hquiet]
    · simp [hother]
  simp only [quiet, hbrokers]

theorem exists_broker_of_quiet {first second : ClusterState} (hquiet : first.quiet = second.quiet)
    {id : Int32} {broker : BrokerState} (hbroker : first.brokers[id]? = some broker) :
    ∃ other, second.brokers[id]? = some other ∧ other.quiet = broker.quiet := by
  have hsame : second.brokers[id]?.map BrokerState.quiet = some broker.quiet := by
    rw [← getElem?_quiet, ← hquiet, getElem?_quiet, hbroker, Option.map_some]
  exact Option.map_eq_some_iff.mp hsame

/-- Coordinators are found by their names and by the identifiers of the brokers alone. -/
theorem coordinator_congr {first second : ClusterState}
    (hnamed : first.coordinators = second.coordinators)
    (hbrokers : ∀ id, id ∈ first.brokers ↔ id ∈ second.brokers) (group : String) :
    first.coordinator group = second.coordinator group := by
  have hlowest : first.brokers.minKey? = second.brokers.minKey? := by
    ext id
    simp only [Std.ExtTreeMap.minKey?_eq_some_iff_mem_and_forall, hbrokers]
  unfold coordinator
  simp only [checkBroker, hbrokers, hnamed, hlowest]

theorem coordinator_quiet (cluster : ClusterState) (group : String) :
    cluster.quiet.coordinator group = cluster.coordinator group := by
  have hnamed : cluster.quiet.coordinators = cluster.coordinators := rfl
  exact coordinator_congr hnamed cluster.mem_quiet group

theorem coordinator_of_quiet {first second : ClusterState} (hquiet : first.quiet = second.quiet)
    (group : String) : first.coordinator group = second.coordinator group := by
  rw [← coordinator_quiet first, hquiet, coordinator_quiet]

end ClusterState

/-! ## Requests to brokers -/

namespace BrokerState

theorem keeps_listOffsets (id : Int32) (request : ListOffsets.Request) :
    Keeps quiet (listOffsets id request) :=
  fun _ => rfl

theorem keeps_fetch (id : Int32) (request : OffsetFetch.Request) : Keeps quiet (fetch id request) :=
  fun _ => rfl

end BrokerState

namespace World

/-- The cluster of a world but for the counts of its brokers' requests. -/
def quiet (world : World) : ClusterState :=
  world.cluster.quiet

theorem onCluster_run {α : Type} (action : StateM ClusterState α) (world : World) :
    (onCluster action).run world =
      ((action.run world.cluster).1,
        { world with cluster := (action.run world.cluster).2 }) := rfl

theorem keeps_onCluster {α β : Type} {view : ClusterState → β} {action : StateM ClusterState α}
    (haction : Keeps view action) : Keeps (fun world => view world.cluster) (onCluster action) :=
  fun world => haction world.cluster

theorem onBroker?_run {α : Type} (action : StateM BrokerState α) (id : Int32)
    (cluster : ClusterState) :
    (onBroker? id action).run cluster =
      match cluster.brokers[id]? with
      | none => (none, cluster)
      | some broker => (some (action.run broker).1,
          { cluster with brokers := cluster.brokers.insert id (action.run broker).2 }) := rfl

theorem onBroker_run {α : Type} (action : StateM BrokerState (Reply α)) (id : Int32)
    (world : World) :
    (onBroker id action).run world =
      match world.cluster.brokers[id]? with
      | none => (.error (Trouble.unknownBroker id).cause, world)
      | some broker => ((action.run broker).1,
          { world with
            cluster :=
              { world.cluster with
                brokers := world.cluster.brokers.insert id (action.run broker).2 } }) := by
  rw [onBroker, bind_run, onCluster_run, onBroker?_run]
  cases world.cluster.brokers[id]? <;> rfl

theorem onBroker_cluster {α : Type} (action : StateM BrokerState (Reply α)) (id : Int32)
    (world : World) :
    ((onBroker id action).run world).2.cluster = ((onBroker? id action).run world.cluster).2 := by
  rw [onBroker_run, onBroker?_run]
  cases world.cluster.brokers[id]? <;> rfl

theorem keeps_onBroker? {α : Type} {action : StateM BrokerState α}
    (haction : Keeps BrokerState.quiet action) (id : Int32) :
    Keeps ClusterState.quiet (onBroker? id action) := by
  intro cluster
  rw [onBroker?_run]
  cases hbroker : cluster.brokers[id]? with
  | none => rfl
  | some broker => exact ClusterState.quiet_insert hbroker (haction broker)

theorem keeps_broker (id : Int32) (version : Int16) (request : ListOffsets.Request) :
    Keeps quiet ((World.broker id).listOffsets version request) := by
  have hasked := keeps_onBroker? (BrokerState.keeps_listOffsets id request) id
  apply (keeps_onCluster hasked).bind
  intro answer
  cases answer <;> exact Keeps.pure _

theorem keeps_coordinator_fetch (id : Int32) (version : Int16) (request : OffsetFetch.Request) :
    Keeps quiet ((World.coordinator id).fetch version request) := by
  have hasked := keeps_onBroker? (BrokerState.keeps_fetch id request) id
  apply (keeps_onCluster hasked).bind
  intro answer
  cases answer <;> exact Keeps.pure _

/-! ## Surveys and fetches -/

theorem leader_run (topic : String) (partition : Int32) (world : World) :
    (clusterView.leader topic partition).run world =
      ((world.cluster.leader ⟨topic, partition⟩).map World.broker, world) := rfl

/-- The leaders that are looked up are brokers of the world. -/
theorem findLeaders_world (topic : String) (start : Nat) (partitions : List Int32)
    (world : World) :
    ∃ result, (findLeaders clusterView topic start partitions).runFrom world = (result, world) ∧
      ∀ leds, result = .ok leds → ∀ led ∈ leds, ∃ id, led.leader = World.broker id := by
  induction partitions generalizing start with
  | nil => exact ⟨.ok [], rfl, by simp⟩
  | cons partition rest ih =>
      obtain ⟨others, hrest, hothers⟩ := ih (start + 1)
      rw [findLeaders_cons_run, leader_run]
      cases world.cluster.leader ⟨topic, partition⟩ with
      | error cause => exact ⟨_, rfl, by simp⟩
      | ok id =>
          simp only [Except.map, hrest]
          cases others with
          | error failure => exact ⟨_, rfl, by simp⟩
          | ok leds =>
              refine ⟨_, rfl, ?_⟩
              simp only [Except.ok.injEq, forall_eq', List.forall_mem_cons]
              exact ⟨⟨id, rfl⟩, hothers leds rfl⟩

theorem keeps_askEnds (topic : String) (partitions : List Int32) (id : Int32) :
    Keeps quiet (askEnds topic partitions (World.broker id)) := by
  apply (keeps_broker id _ _).bind
  intro oldest
  split
  · exact Keeps.pure _
  · exact (keeps_broker id _ _).bind fun newest => Keeps.pure _

theorem keeps_survey (topic : String) : Keeps quiet (survey clusterView topic).run := by
  intro world
  change quiet ((survey clusterView topic).runFrom world).2 = quiet world
  have hlisted : (clusterView.partitions topic).run world =
      (world.cluster.partitions topic, world) := rfl
  rw [survey_run, hlisted]
  cases world.cluster.partitions topic with
  | error cause => rfl
  | ok partitions =>
      obtain ⟨result, hfound, hleds⟩ := findLeaders_world topic 0 partitions world
      simp only [hfound]
      cases result with
      | error failure => rfl
      | ok leds =>
          have hasked : Keeps quiet ((Share.divide leds).mapM (Share.survey topic)) := by
            apply Keeps.mapM
            intro share hshare
            rw [Share.divide_eq] at hshare
            obtain ⟨broker, hbroker, rfl⟩ := List.mem_map.mp hshare
            obtain ⟨led, hled, rfl⟩ := List.mem_map.mp (mem_of_mem_firstsBy hbroker)
            obtain ⟨id, hid⟩ := hleds leds rfl led hled
            rw [Share.survey_eq, Share.of, hid]
            exact (keeps_askEnds topic _ id).map _
          exact (hasked.bind fun outcomes => Keeps.pure _) world

theorem keeps_fetch (group topic : String) (partitions : List Int32) :
    Keeps quiet (Commitment.fetch clusterView group topic partitions).run := by
  intro world
  change quiet ((Commitment.fetch clusterView group topic partitions).runFrom world).2 = quiet world
  have hfound : clusterView.coordinator group world =
      ((world.cluster.coordinator group).map World.coordinator, world) := rfl
  rw [Commitment.fetch, Errand.runFrom_bind, Errand.runFrom_await, hfound]
  cases world.cluster.coordinator group with
  | error cause => rfl
  | ok id =>
      have hasked : Keeps quiet (do
          let response ← Errand.await .committedMarks ((World.coordinator id).fetch
            OffsetFetch.version (OffsetFetch.request group topic partitions))
          Errand.ofExcept (Commitment.marksOf response group topic partitions)).run :=
        Keeps.errand_bind (Keeps.await (keeps_coordinator_fetch id _ _) _) fun _ => Keeps.pure _
      exact hasked world

end World

end ConsumerGroups.Simulated
