import ConsumerGroups.Proofs.Simulated.Steps
import ConsumerGroups.Proofs.Threads

/-! # What queries leave behind

All that a query leaves behind in a session is its footprint: the console is connected to what the
query needs, if that is possible, and brokers have counted requests for offsets. Footprints add up,
in any order, and no single call that a query makes answers differently because of them.
-/

namespace ConsumerGroups.Simulated

open Message Results

/-! ## Counts of requests -/

/-- Counts more requests for offsets. -/
def BrokerState.count (broker : BrokerState) (requests : Nat) : BrokerState :=
  { broker with listCalls := broker.listCalls + requests }

/-- Counts requests for offsets at every broker. -/
def ClusterState.charge (cluster : ClusterState) (requests : Int32 → Nat) : ClusterState :=
  { cluster with brokers := cluster.brokers.map fun id broker => broker.count (requests id) }

namespace ClusterState

variable (cluster : ClusterState)

theorem getElem?_charge (requests : Int32 → Nat) (id : Int32) :
    (cluster.charge requests).brokers[id]? =
      cluster.brokers[id]?.map (·.count (requests id)) := by
  simp [charge, Std.ExtTreeMap.getElem?_map]

theorem mem_charge (requests : Int32 → Nat) (id : Int32) :
    id ∈ (cluster.charge requests).brokers ↔ id ∈ cluster.brokers := by
  simp [charge, Std.ExtTreeMap.mem_map]

/-- Two clusters that differ in brokers only are the same if the brokers are. -/
theorem ext_brokers {first second : ClusterState}
    (hrest : { first with brokers := ∅ } = { second with brokers := ∅ })
    (hbrokers : ∀ id : Int32, first.brokers[id]? = second.brokers[id]?) : first = second := by
  rcases first with ⟨brokers, topics, leaders, coordinators, closed⟩
  rcases second with ⟨brokers', topics', leaders', coordinators', closed'⟩
  cases hrest
  obtain rfl : brokers = brokers' := Std.ExtTreeMap.ext_getElem? hbrokers
  rfl

theorem charge_zero : cluster.charge (fun _ => 0) = cluster := by
  refine ext_brokers rfl fun id => ?_
  rw [getElem?_charge]
  cases cluster.brokers[id]? <;> rfl

theorem charge_charge (first second : Int32 → Nat) :
    (cluster.charge first).charge second = cluster.charge fun id => first id + second id := by
  refine ext_brokers rfl fun id => ?_
  rw [getElem?_charge, getElem?_charge, getElem?_charge]
  cases cluster.brokers[id]? with
  | none => rfl
  | some broker => simp [BrokerState.count, Nat.add_assoc]

theorem quiet_charge (requests : Int32 → Nat) :
    (cluster.charge requests).quiet = cluster.quiet := by
  refine ext_brokers rfl fun id => ?_
  rw [getElem?_quiet, getElem?_quiet, getElem?_charge]
  cases cluster.brokers[id]? <;> rfl

theorem leader_charge (requests : Int32 → Nat) (place : TopicPartition) :
    (cluster.charge requests).leader place = cluster.leader place := by
  unfold leader checkBroker
  simp only [mem_charge]
  rfl

theorem coordinator_charge (requests : Int32 → Nat) (group : String) :
    (cluster.charge requests).coordinator group = cluster.coordinator group :=
  coordinator_of_quiet (cluster.quiet_charge requests) group

end ClusterState

/-- One request to one broker. -/
def requestTo (id : Int32) : Int32 → Nat :=
  fun other => if other = id then 1 else 0

namespace World

def charge (world : World) (requests : Int32 → Nat) : World :=
  { world with cluster := world.cluster.charge requests }

/-- Counts a request for offsets when it is sent. -/
def send (id : Int32) : StateM World Unit :=
  modify (·.charge (requestTo id))

/-- The answer to a request for offsets. -/
def answerTo (world : World) (id : Int32) (request : ListOffsets.Request) :
    Timed (Reply ListOffsets.Response) :=
  match world.cluster.brokers[id]? with
  | some broker => ⟨broker.delay, broker.unlessDown id (broker.listResponse request)⟩
  | none => ⟨0, .error (Trouble.unknownBroker id).cause⟩

/-- Answers a request for offsets that was counted before. -/
def answer (id : Int32) (request : ListOffsets.Request) :
    StateM World (Timed (Reply ListOffsets.Response)) :=
  return (← get).answerTo id request

theorem answerTo_charge (world : World) (requests : Int32 → Nat) (id : Int32)
    (request : ListOffsets.Request) :
    (world.charge requests).answerTo id request = world.answerTo id request := by
  simp only [answerTo, charge, ClusterState.getElem?_charge]
  cases world.cluster.brokers[id]? <;> rfl

theorem charge_requestTo {world : World} {id : Int32} {broker : BrokerState}
    (hbroker : world.cluster.brokers[id]? = some broker) :
    world.charge (requestTo id) =
      { world with
        cluster :=
          { world.cluster with
            brokers := world.cluster.brokers.insert id
              { broker with listCalls := broker.listCalls + 1 } } } := by
  have hcluster : world.cluster.charge (requestTo id) =
      { world.cluster with
        brokers := world.cluster.brokers.insert id
          { broker with listCalls := broker.listCalls + 1 } } := by
    refine ClusterState.ext_brokers rfl fun other => ?_
    rw [ClusterState.getElem?_charge, Std.ExtTreeMap.getElem?_insert]
    by_cases hother : compare id other = .eq
    · obtain rfl := Std.LawfulEqOrd.eq_of_compare hother
      simp [hbroker, requestTo, BrokerState.count]
    · have hne : other ≠ id := fun heq => hother (heq ▸ Std.ReflCmp.compare_self)
      simp only [hother, if_false, requestTo, hne, if_false]
      cases world.cluster.brokers[other]? <;> rfl
  rw [charge, hcluster]

/-- A broker that is not there counts nothing. -/
theorem charge_of_absent {world : World} {id : Int32}
    (habsent : world.cluster.brokers[id]? = none) : world.charge (requestTo id) = world := by
  have hcluster : world.cluster.charge (requestTo id) = world.cluster := by
    refine ClusterState.ext_brokers rfl fun other => ?_
    rw [ClusterState.getElem?_charge]
    by_cases hother : other = id
    · rw [hother, habsent]
      rfl
    · simp only [requestTo, hother, if_false]
      cases world.cluster.brokers[other]? <;> rfl
  rw [charge, hcluster]

/-- A request for offsets is counted and then answered. -/
theorem listOffsets_run_eq (id : Int32) (version : Int16) (request : ListOffsets.Request)
    (world : World) :
    ((World.broker id).listOffsets version request).run world =
      (world.answerTo id request, world.charge (requestTo id)) := by
  cases hbroker : world.cluster.brokers[id]? with
  | none =>
      rw [charge_of_absent hbroker, World.broker, bind_run, onCluster_run, onBroker?_run, hbroker,
        answerTo, hbroker]
      rfl
  | some broker => rw [listOffsets_run hbroker, charge_requestTo hbroker, answerTo, hbroker]

theorem listOffsets_eq (id : Int32) (version : Int16) (request : ListOffsets.Request) :
    (World.broker id).listOffsets version request = send id >>= fun _ => answer id request := by
  funext world
  have hrun := listOffsets_run_eq id version request world
  rw [← answerTo_charge world (requestTo id)] at hrun
  exact hrun

/-- The answer to a fetch of marks. -/
def fetchedFrom (world : World) (id : Int32) (request : OffsetFetch.Request) :
    Reply OffsetFetch.Response :=
  match world.cluster.brokers[id]? with
  | some broker => broker.unlessDown id (broker.fetchResponse request)
  | none => .error (Trouble.unknownBroker id).cause

/-- A fetch of marks changes nothing. -/
theorem fetch_run (id : Int32) (version : Int16) (request : OffsetFetch.Request)
    (world : World) :
    ((World.coordinator id).fetch version request).run world =
      (world.fetchedFrom id request, world) := by
  have hrun := onBroker_run (BrokerState.fetch id request) id world
  cases hbroker : world.cluster.brokers[id]? with
  | none =>
      rw [hbroker] at hrun
      rw [fetchedFrom, hbroker]
      exact hrun
  | some broker =>
      -- The broker is put back as it was.
      have hcluster : { world.cluster with brokers := world.cluster.brokers.insert id broker } =
          world.cluster := by
        refine ClusterState.ext_brokers rfl fun other => ?_
        rw [Std.ExtTreeMap.getElem?_insert]
        split
        · obtain rfl := Std.LawfulEqOrd.eq_of_compare ‹_›
          exact hbroker.symm
        · rfl
      rw [hbroker] at hrun
      rw [fetchedFrom, hbroker]
      refine hrun.trans (congrArg (Prod.mk _) ?_)
      exact congrArg (fun cluster => { world with cluster }) hcluster

end World

/-! ## Footprints -/

/-- What queries leave behind: whether they made use of the cluster and of the registry, and how
many requests for offsets they sent to each broker. -/
@[ext]
structure Footprint where
  cluster : Bool := false
  registry : Bool := false
  requests : Int32 → Nat := fun _ => 0

namespace Footprint

instance : Zero Footprint :=
  ⟨{}⟩

instance : Add Footprint :=
  ⟨fun first second =>
    { cluster := first.cluster || second.cluster
      registry := first.registry || second.registry
      requests := fun id => first.requests id + second.requests id }⟩

theorem add_def (first second : Footprint) :
    first + second =
      { cluster := first.cluster || second.cluster
        registry := first.registry || second.registry
        requests := fun id => first.requests id + second.requests id } := rfl

theorem zero_def : (0 : Footprint) = {} := rfl

instance : AddCommMonoid Footprint where
  add_assoc first second third := by
    simp only [add_def, Bool.or_assoc, Nat.add_assoc]
  zero_add footprint := by
    simp only [add_def, zero_def, Bool.false_or, Nat.zero_add]
  add_zero footprint := by
    simp only [add_def, zero_def, Bool.or_false, Nat.add_zero]
  add_comm first second := by
    simp only [add_def, Bool.or_comm, Nat.add_comm]
  nsmul := nsmulRec

end Footprint

namespace Session

/-- The console makes use of the cluster: it connects, unless it is connected, closed or refused. -/
def connectCluster (session : Session) : Session :=
  match session.console.slots.clusterAccess with
  | .empty =>
    if session.world.refusing then session
    else
      { session with
        world := { session.world with clusterConnects := session.world.clusterConnects + 1 }
        console :=
          { session.console with slots := session.console.slots.withCluster World.clusterView } }
  | _ => session

/-- The console makes use of the registry: it connects, unless it is connected, closed or
refused. -/
def connectRegistry (session : Session) : Session :=
  match session.console.slots.registryAccess with
  | .empty =>
    if session.world.refusing then session
    else
      { session with
        world := { session.world with registryConnects := session.world.registryConnects + 1 }
        console :=
          { session.console with slots := session.console.slots.withRegistry World.registryView } }
  | _ => session

def charge (session : Session) (requests : Int32 → Nat) : Session :=
  { session with world := session.world.charge requests }

/-- Leaves a footprint in a session. -/
def touch (footprint : Footprint) (session : Session) : Session :=
  let session := session.charge footprint.requests
  let session := if footprint.registry then session.connectRegistry else session
  if footprint.cluster then session.connectCluster else session

variable (session : Session)

theorem connectCluster_charge (requests : Int32 → Nat) :
    (session.charge requests).connectCluster = session.connectCluster.charge requests := by
  rcases session with ⟨⟨_, _, _, _, refusing⟩, ⟨_, _, ⟨cluster, registry, closed⟩⟩, _⟩
  cases closed <;> cases cluster <;> cases refusing <;> rfl

theorem connectRegistry_charge (requests : Int32 → Nat) :
    (session.charge requests).connectRegistry = session.connectRegistry.charge requests := by
  rcases session with ⟨⟨_, _, _, _, refusing⟩, ⟨_, _, ⟨cluster, registry, closed⟩⟩, _⟩
  cases closed <;> cases registry <;> cases refusing <;> rfl

theorem connectCluster_connectRegistry :
    session.connectRegistry.connectCluster = session.connectCluster.connectRegistry := by
  rcases session with ⟨⟨_, _, _, _, refusing⟩, ⟨_, _, ⟨cluster, registry, closed⟩⟩, _⟩
  cases closed <;> cases cluster <;> cases registry <;> cases refusing <;> rfl

theorem connectCluster_connectCluster :
    session.connectCluster.connectCluster = session.connectCluster := by
  rcases session with ⟨⟨_, _, _, _, refusing⟩, ⟨_, _, ⟨cluster, registry, closed⟩⟩, _⟩
  cases closed <;> cases cluster <;> cases refusing <;> rfl

theorem connectRegistry_connectRegistry :
    session.connectRegistry.connectRegistry = session.connectRegistry := by
  rcases session with ⟨⟨_, _, _, _, refusing⟩, ⟨_, _, ⟨cluster, registry, closed⟩⟩, _⟩
  cases closed <;> cases registry <;> cases refusing <;> rfl

theorem charge_charge (first second : Int32 → Nat) :
    (session.charge first).charge second = session.charge fun id => first id + second id := by
  simp only [charge, World.charge, ClusterState.charge_charge]

theorem touch_zero : session.touch 0 = session := by
  change session.charge (fun _ => 0) = session
  rw [charge, World.charge, ClusterState.charge_zero]

/-- Footprints add up. -/
theorem touch_add (first second : Footprint) :
    session.touch (first + second) = (session.touch second).touch first := by
  rcases first with ⟨cluster, registry, requests⟩
  rcases second with ⟨cluster', registry', requests'⟩
  have hcharge : (session.charge requests').charge requests =
      session.charge fun id => requests id + requests' id := by
    simp only [charge_charge, Nat.add_comm]
  -- Connections and charges pass each other, and a connection that is made twice is made once.
  cases cluster <;> cases registry <;> cases cluster' <;> cases registry' <;>
    simp [touch, Footprint.add_def, ← hcharge, ← connectCluster_charge, ← connectRegistry_charge,
      connectCluster_connectCluster, connectRegistry_connectRegistry,
      connectCluster_connectRegistry]

instance : AddAction Footprint Session where
  vadd footprint session := session.touch footprint
  zero_vadd := touch_zero
  add_vadd first second session := touch_add session first second

theorem vadd_eq (footprint : Footprint) : footprint +ᵥ session = session.touch footprint := rfl

/-- A footprint adds to the counts of the brokers and of the connections, and connects the console.
All else stays as it is. -/
theorem touch_fields (footprint : Footprint) :
    let touched := session.touch footprint
    touched.links = session.links ∧ touched.world.registry = session.world.registry ∧
      touched.world.refusing = session.world.refusing ∧
      touched.world.cluster = session.world.cluster.charge footprint.requests ∧
      touched.console.settings = session.console.settings ∧
      touched.console.dialer = session.console.dialer ∧
      touched.console.slots.closed = session.console.slots.closed := by
  rcases session with ⟨⟨_, _, _, _, refusing⟩, ⟨_, _, ⟨cluster, registry, closed⟩⟩, _⟩
  rcases footprint with ⟨usesCluster, usesRegistry, _⟩
  cases usesCluster <;> cases usesRegistry <;> cases closed <;> cases cluster <;>
    cases registry <;> cases refusing <;> exact ⟨rfl, rfl, rfl, rfl, rfl, rfl, rfl⟩

theorem cluster_touch (footprint : Footprint) :
    (session.touch footprint).world.cluster =
      session.world.cluster.charge footprint.requests :=
  (session.touch_fields footprint).2.2.2.1

theorem registry_touch (footprint : Footprint) :
    (session.touch footprint).world.registry = session.world.registry :=
  (session.touch_fields footprint).2.1

/-- What the console meets when it makes use of the cluster. -/
def clusterReached : Except Failure (Cluster World) :=
  match session.console.slots.clusterAccess with
  | .closed => .error (.connection .clusterConnection Links.closedCause)
  | .connected cluster => .ok cluster
  | .empty =>
    if session.world.refusing then
      .error (.connection .clusterConnection
        (Trouble.refused session.console.settings.cluster.seedPeers).cause)
    else .ok World.clusterView

/-- What the console meets when it makes use of the registry. -/
def registryReached : Except Failure (Registry World) :=
  match session.console.slots.registryAccess with
  | .closed => .error (.connection .registryConnection Links.closedCause)
  | .connected registry => .ok registry
  | .empty =>
    if session.world.refusing then
      .error (.connection .registryConnection
        (Trouble.refused session.console.settings.registry.seedPeers).cause)
    else .ok World.registryView

theorem clusterReached_touch (footprint : Footprint) :
    (session.touch footprint).clusterReached = session.clusterReached := by
  rcases session with ⟨⟨_, _, _, _, refusing⟩, ⟨_, _, ⟨cluster, registry, closed⟩⟩, _⟩
  rcases footprint with ⟨usesCluster, usesRegistry, _⟩
  cases usesCluster <;> cases usesRegistry <;> cases closed <;> cases cluster <;>
    cases registry <;> cases refusing <;> rfl

theorem registryReached_touch (footprint : Footprint) :
    (session.touch footprint).registryReached = session.registryReached := by
  rcases session with ⟨⟨_, _, _, _, refusing⟩, ⟨_, _, ⟨cluster, registry, closed⟩⟩, _⟩
  rcases footprint with ⟨usesCluster, usesRegistry, _⟩
  cases usesCluster <;> cases usesRegistry <;> cases closed <;> cases cluster <;>
    cases registry <;> cases refusing <;> rfl

end Session

/-! ## Calls -/

section Calls

variable {α : Type} {session : Session}

/-- A call that reads what no footprint touches leaves nothing behind. -/
theorem leaves_reading (view : Session → α)
    (hview : ∀ footprint, view (session.touch footprint) = view session) :
    LeavesBehind session (fun session => (view session, session)) (view session)
      (0 : Footprint) := by
  intro footprint
  rw [zero_vadd, Session.vadd_eq]
  exact congrArg (·, session.touch footprint) (hview footprint)

theorem run_reachCluster (hdialer : session.console.dialer = World.dialer) :
    (Session.onConsole Links.reachCluster.run).run session =
      (session.clusterReached, session.connectCluster) := by
  rcases session with ⟨⟨_, _, _, _, refusing⟩, ⟨_, _, ⟨cluster, registry, closed⟩⟩, _⟩
  cases hdialer
  cases closed <;> cases cluster <;> cases refusing <;> rfl

theorem run_reachRegistry (hdialer : session.console.dialer = World.dialer) :
    (Session.onConsole Links.reachRegistry.run).run session =
      (session.registryReached, session.connectRegistry) := by
  rcases session with ⟨⟨_, _, _, _, refusing⟩, ⟨_, _, ⟨cluster, registry, closed⟩⟩, _⟩
  cases hdialer
  cases closed <;> cases registry <;> cases refusing <;> rfl

theorem leaves_reachCluster (hdialer : session.console.dialer = World.dialer) :
    LeavesBehind session (Session.onConsole Links.reachCluster.run) session.clusterReached
      ({ cluster := true } : Footprint) := by
  intro footprint
  have hwired : (session.touch footprint).console.dialer = World.dialer :=
    (session.touch_fields footprint).2.2.2.2.2.1.trans hdialer
  rw [Session.vadd_eq, Session.vadd_eq, run_reachCluster hwired, Session.clusterReached_touch]
  exact congrArg (session.clusterReached, ·.connectCluster)
    (Session.touch_zero (session.touch footprint)).symm

theorem leaves_reachRegistry (hdialer : session.console.dialer = World.dialer) :
    LeavesBehind session (Session.onConsole Links.reachRegistry.run) session.registryReached
      ({ registry := true } : Footprint) := by
  intro footprint
  have hwired : (session.touch footprint).console.dialer = World.dialer :=
    (session.touch_fields footprint).2.2.2.2.2.1.trans hdialer
  rw [Session.vadd_eq, Session.vadd_eq, run_reachRegistry hwired, Session.registryReached_touch]
  exact congrArg (session.registryReached, ·.connectRegistry)
    (Session.touch_zero (session.touch footprint)).symm

theorem leaves_send (id : Int32) :
    LeavesBehind session (Session.onWorld (World.send id)) ()
      ({ requests := requestTo id } : Footprint) :=
  fun _ => rfl

end Calls

/-- The calls on the world that queries are made of. A request for offsets is two of them, since the
answer comes later than it is sent. -/
inductive AskCall : (β : Type) → StateM World β → Prop
  | partitions (topic : String) : AskCall _ (World.clusterView.partitions topic)
  | leader (topic : String) (partition : Int32) :
      AskCall _ (World.clusterView.leader topic partition)
  | coordinator (group : String) : AskCall _ (World.clusterView.coordinator group)
  | send (id : Int32) : AskCall _ (World.send id)
  | answer (id : Int32) (request : ListOffsets.Request) : AskCall _ (World.answer id request)
  | fetch (id : Int32) (version : Int16) (request : OffsetFetch.Request) :
      AskCall _ ((World.coordinator id).fetch version request)
  | children (path : String) : AskCall _ (World.registryView.children path)
  | read (path : String) : AskCall _ (World.registryView.read path)

/-- The calls that queries are made of. A connection is reached in one: a console lets nobody else
in meanwhile. -/
inductive QueryCall : (β : Type) → StateM Session β → Prop
  | reachCluster : QueryCall _ (Session.onConsole Links.reachCluster.run)
  | reachRegistry : QueryCall _ (Session.onConsole Links.reachRegistry.run)
  | chroot : QueryCall _ (Session.onConsole Console.chroot.run)
  | ask {β : Type} {action : StateM World β} (hask : AskCall β action) :
      QueryCall β (Session.onWorld action)

theorem AskCall.leaves {β : Type} {action : StateM World β} (hask : AskCall β action)
    (session : Session) :
    ∃ answer, ∃ footprint : Footprint,
      LeavesBehind session (Session.onWorld action) answer footprint := by
  cases hask with
  | partitions topic =>
      refine ⟨_, 0, leaves_reading (fun session => session.world.cluster.partitions topic)
        fun footprint => ?_⟩
      rw [session.cluster_touch]
      rfl
  | leader topic partition =>
      refine ⟨_, 0, leaves_reading
        (fun session => (session.world.cluster.leader ⟨topic, partition⟩).map World.broker)
        fun footprint => ?_⟩
      rw [session.cluster_touch, ClusterState.leader_charge]
  | coordinator group =>
      refine ⟨_, 0, leaves_reading
        (fun session => (session.world.cluster.coordinator group).map World.coordinator)
        fun footprint => ?_⟩
      rw [session.cluster_touch, ClusterState.coordinator_charge]
  | send id => exact ⟨_, _, leaves_send id⟩
  | answer id request =>
      refine ⟨_, 0, leaves_reading (fun session => session.world.answerTo id request)
        fun footprint => ?_⟩
      rw [← World.answerTo_charge session.world footprint.requests, World.answerTo, World.answerTo,
        session.cluster_touch]
      rfl
  | fetch id version request =>
      have hreads : Session.onWorld ((World.coordinator id).fetch version request) =
          fun session => (session.world.fetchedFrom id request, session) := by
        funext session
        have hrun := World.fetch_run id version request session.world
        exact congrArg (fun run => (run.1, { session with world := run.2 })) hrun
      rw [hreads]
      refine ⟨_, 0, leaves_reading (fun session => session.world.fetchedFrom id request)
        fun footprint => ?_⟩
      simp only [World.fetchedFrom, session.cluster_touch, ClusterState.getElem?_charge]
      cases session.world.cluster.brokers[id]? <;> rfl
  | children path =>
      refine ⟨_, 0, leaves_reading (fun session => session.world.registry.children path)
        fun footprint => ?_⟩
      rw [session.registry_touch]
  | read path =>
      refine ⟨_, 0, leaves_reading (fun session => session.world.registry.read path)
        fun footprint => ?_⟩
      rw [session.registry_touch]

/-- No call of a query is disturbed by what other queries leave behind. -/
theorem QueryCall.leaves {β : Type} {action : StateM Session β} (hcall : QueryCall β action)
    {session : Session} (hdialer : session.console.dialer = World.dialer) :
    ∃ answer, ∃ footprint : Footprint, LeavesBehind session action answer footprint := by
  cases hcall with
  | reachCluster => exact ⟨_, _, leaves_reachCluster hdialer⟩
  | reachRegistry => exact ⟨_, _, leaves_reachRegistry hdialer⟩
  | chroot =>
      refine ⟨_, 0, leaves_reading
        (fun session => Except.ok session.console.settings.registry.chroot) fun footprint => ?_⟩
      rw [(session.touch_fields footprint).2.2.2.2.1]
  | ask hask => exact hask.leaves session

end ConsumerGroups.Simulated
