import ConsumerGroups.Proofs.Links
import ConsumerGroups.Proofs.Simulated.Changes
import ConsumerGroups.Simulated.Session

/-! # The steps of a session

Users of a world are connected to that world and to no other. So whatever step a session takes,
its cluster changes by the edit or the request of the step, or not at all.
-/

namespace ConsumerGroups.Simulated

open Message Results

/-! ## Users of the world -/

/-- Links that connect to the world, and are connected to nothing else. -/
structure Wired (links : Links World) : Prop where
  dialer : links.dialer = World.dialer
  cluster : ∀ cluster, links.slots.cluster = some cluster → cluster = World.clusterView
  registry : ∀ registry, links.slots.registry = some registry → registry = World.registryView

theorem Wired.fresh (settings : Settings) : Wired (Session.freshLinks settings) :=
  ⟨rfl, by simp [Session.freshLinks], by simp [Session.freshLinks]⟩

/-- An attempt to connect is refused or hands out the view of the world's cluster. -/
theorem dialer_cluster (settings : ClusterSettings) (world : World) :
    (∃ cause, (World.dialer.cluster settings).run world = (.error cause, world)) ∨
      ∃ reached, (World.dialer.cluster settings).run world = (.ok World.clusterView, reached) ∧
        reached.cluster = world.cluster := by
  rcases world with ⟨cluster, registry, clusterConnects, registryConnects, refusing⟩
  cases refusing with
  | true => exact .inl ⟨_, rfl⟩
  | false => exact .inr ⟨_, rfl, rfl⟩

theorem dialer_registry (settings : RegistrySettings) (world : World) :
    (∃ cause, (World.dialer.registry settings).run world = (.error cause, world)) ∨
      ∃ reached, (World.dialer.registry settings).run world = (.ok World.registryView, reached) ∧
        reached.cluster = world.cluster := by
  rcases world with ⟨cluster, registry, clusterConnects, registryConnects, refusing⟩
  cases refusing with
  | true => exact .inl ⟨_, rfl⟩
  | false => exact .inr ⟨_, rfl, rfl⟩

/-- Users that reach a cluster reach the world's, and change nothing in it. -/
theorem Wired.reachCluster {links : Links World} (hwired : Wired links) (world : World) :
    ∃ result after reached, Links.reachCluster.runFrom links world = ((result, after), reached) ∧
      Wired after ∧ reached.cluster = world.cluster ∧
      ∀ cluster, result = .ok cluster → cluster = World.clusterView := by
  rw [Links.reachCluster_run]
  cases haccess : links.slots.clusterAccess with
  | closed => exact ⟨_, _, _, rfl, hwired, rfl, by simp⟩
  | connected cluster =>
      refine ⟨_, _, _, rfl, hwired, rfl, ?_⟩
      rintro _ ⟨⟩
      exact hwired.cluster cluster (Slots.access_eq_connected.mp haccess).2
  | empty =>
      rw [hwired.dialer]
      rcases dialer_cluster links.settings.cluster world with ⟨cause, hdialed⟩ | ⟨reached, hdialed, hsame⟩
      · rw [hdialed]
        exact ⟨_, _, _, rfl, hwired, rfl, by simp⟩
      · rw [hdialed]
        refine ⟨_, _, _, rfl, ⟨rfl, ?_, hwired.registry⟩, hsame, ?_⟩
        · rintro _ ⟨⟩
          rfl
        · rintro _ ⟨⟩
          rfl

/-- Users that reach a registry reach the world's, and change nothing in the cluster. -/
theorem Wired.reachRegistry {links : Links World} (hwired : Wired links) (world : World) :
    ∃ result after reached, Links.reachRegistry.runFrom links world = ((result, after), reached) ∧
      Wired after ∧ reached.cluster = world.cluster ∧
      ∀ registry, result = .ok registry → registry = World.registryView := by
  rw [Links.reachRegistry_run]
  cases haccess : links.slots.registryAccess with
  | closed => exact ⟨_, _, _, rfl, hwired, rfl, by simp⟩
  | connected registry =>
      refine ⟨_, _, _, rfl, hwired, rfl, ?_⟩
      rintro _ ⟨⟩
      exact hwired.registry registry (Slots.access_eq_connected.mp haccess).2
  | empty =>
      rw [hwired.dialer]
      rcases dialer_registry links.settings.registry world with
        ⟨cause, hdialed⟩ | ⟨reached, hdialed, hsame⟩
      · rw [hdialed]
        exact ⟨_, _, _, rfl, hwired, rfl, by simp⟩
      · rw [hdialed]
        refine ⟨_, _, _, rfl, ⟨rfl, hwired.cluster, ?_⟩, hsame, ?_⟩
        · rintro _ ⟨⟩
          rfl
        · rintro _ ⟨⟩
          rfl

/-- Users that let go of their connections close the world's cluster, or leave it alone. -/
theorem Wired.release {links : Links World} (hwired : Wired links) (world : World) :
    ((Links.release links.slots).run world).2.cluster = world.cluster ∨
      ((Links.release links.slots).run world).2.cluster = ClusterEdit.close.apply world.cluster := by
  unfold Links.release
  cases hcluster : links.slots.cluster with
  | none =>
      left
      cases hregistry : links.slots.registry with
      | none => rfl
      | some registry =>
          obtain rfl := hwired.registry registry hregistry
          rfl
  | some cluster =>
      right
      obtain rfl := hwired.cluster cluster hcluster
      cases hregistry : links.slots.registry with
      | none => rfl
      | some registry =>
          obtain rfl := hwired.registry registry hregistry
          rfl

/-- A task over the cluster that a user reaches is the task over the world's cluster, if the
user reaches any. -/
theorem Wired.overCluster {links : Links World} (hwired : Wired links) {α : Type}
    (task : Cluster World → Errand World α) (world : World) :
    let run := (Links.reachCluster >>= fun cluster => LinkedErrand.ofTask (task cluster)).runFrom
      links world
    Wired run.1.2 ∧
      ((∃ failure, run.1.1 = .error failure ∧ run.2.cluster = world.cluster) ∨
        ∃ reached, reached.cluster = world.cluster ∧
          (run.1.1, run.2) = (task World.clusterView).runFrom reached) := by
  obtain ⟨result, after, reached, hrun, hafter, hsame, hview⟩ := hwired.reachCluster world
  rw [LinkedErrand.runFrom_bind, hrun]
  cases result with
  | error failure => exact ⟨hafter, .inl ⟨failure, rfl, hsame⟩⟩
  | ok cluster =>
      obtain rfl := hview cluster rfl
      exact ⟨hafter, .inr ⟨reached, hsame, rfl⟩⟩

/-! ## Calls -/

/-- An action of a user that changes the cluster by the given edits and requests alone. -/
def ChangesBy {α : Type} (edits : ClusterEdit → Prop) (sends : OffsetCommit.Request → Prop)
    (action : StateT (Links World) (StateM World) α) : Prop :=
  ∀ links world, Wired links → Wired ((action.run links).run world).1.2 ∧
    Change edits sends world.cluster ((action.run links).run world).2.cluster

namespace ChangesBy

variable {α β : Type} {edits : ClusterEdit → Prop} {sends : OffsetCommit.Request → Prop}

theorem answer {action : StateT (Links World) (StateM World) α}
    (haction : ChangesBy edits sends action) (f : α → β) :
    ChangesBy edits sends (action >>= fun value => pure (f value)) :=
  haction

theorem lift {task : StateM World α}
    (htask : ∀ world, Change edits sends world.cluster (task.run world).2.cluster) :
    ChangesBy edits sends (StateT.lift task : StateT (Links World) (StateM World) α) :=
  fun _ world hwired => ⟨hwired, htask world⟩

/-- A task over the cluster of a user does what it does over the world's. -/
theorem overCluster {task : Cluster World → Errand World α}
    (htask : ∀ world, Change edits sends world.cluster
      ((task World.clusterView).runFrom world).2.cluster) :
    ChangesBy edits sends
      (ExceptT.run (Links.reachCluster >>= fun cluster => LinkedErrand.ofTask (task cluster))) := by
  intro links world hwired
  obtain ⟨hafter, ⟨_, -, hsame⟩ | ⟨reached, hsame, hrun⟩⟩ := hwired.overCluster task world
  · exact ⟨hafter, .none (congrArg ClusterState.quiet hsame)⟩
  · refine ⟨hafter, ?_⟩
    have hchange := htask reached
    rw [← hrun, hsame] at hchange
    exact hchange

/-- A task over the registry of a user leaves the cluster alone if it does so over the world's. -/
theorem overRegistry {task : Registry World → Links World → Errand World α}
    (htask : ∀ links world, ((task World.registryView links).runFrom world).2.cluster =
      world.cluster) :
    ChangesBy edits sends (ExceptT.run (do
      let registry ← Links.reachRegistry
      LinkedErrand.ofTask (task registry (← getThe (Links World))))) := by
  intro links world hwired
  obtain ⟨result, after, reached, hrun, hafter, hsame, hview⟩ := hwired.reachRegistry world
  have hall := LinkedErrand.runFrom_bind Links.reachRegistry
    (fun registry => do LinkedErrand.ofTask (task registry (← getThe (Links World)))) links world
  rw [hrun] at hall
  change Wired (LinkedErrand.runFrom _ links world).1.2 ∧
    Change edits sends world.cluster (LinkedErrand.runFrom _ links world).2.cluster
  rw [hall]
  cases result with
  | error failure => exact ⟨hafter, .none (congrArg ClusterState.quiet hsame)⟩
  | ok registry =>
      obtain rfl := hview registry rfl
      refine ⟨hafter, .none (congrArg ClusterState.quiet ?_)⟩
      exact (htask after reached).trans hsame

/-- Closing a user closes the world's cluster if the user is connected to it. -/
theorem close (hclose : edits .close) : ChangesBy edits sends Links.close := by
  intro links world hwired
  rw [Links.close_run]
  split
  · exact ⟨hwired, .none rfl⟩
  · refine ⟨⟨hwired.dialer, by simp [Slots.shut], by simp [Slots.shut]⟩, ?_⟩
    rcases hwired.release world with hsame | hclosed
    · exact .none (congrArg ClusterState.quiet hsame)
    · change Change edits sends world.cluster ((Links.release links.slots).run world).2.cluster
      rw [hclosed]
      exact .edit .close hclose

end ChangesBy

/-- The edit that a step may make of the cluster. -/
def Step.edit? : Step → Option ClusterEdit
  | .editCluster edit => some edit
  | .editBroker id edit => some (.broker id edit)
  | .call (.console .close) => some .close
  | .link .close => some .close
  | _ => none

/-- The commit that a step may send to a broker. -/
def Step.request? : Step → Option OffsetCommit.Request
  | .call (.console (.commit group topic batch)) => some (OffsetCommit.request group topic batch)
  | .call (.direct (.commit group topic batch)) => some (OffsetCommit.request group topic batch)
  | .askBroker _ (.commit request) => some request
  | _ => none

theorem World.keeps_progressOn (group topic : String) :
    Keeps World.quiet (Console.progressOn World.clusterView group topic).run := by
  apply (keeps_survey topic).errand_bind
  intro ranges
  split
  · exact Keeps.pure _
  · exact (keeps_fetch group topic _).errand_bind fun marks => Keeps.pure _

theorem World.registryView_queriesKeep {γ : Type} (view : World → γ) :
    World.registryView.QueriesKeep view :=
  ⟨fun _ _ => rfl, fun _ _ => rfl⟩

/-- A request to commit is stored on the broker it is sent to, or changes nothing. -/
theorem change_onBroker?_commit {edits : ClusterEdit → Prop} {sends : OffsetCommit.Request → Prop}
    {request : OffsetCommit.Request} (hsends : sends request) (id : Int32) (cluster : ClusterState) :
    Change edits sends cluster
      ((World.onBroker? id (BrokerState.commit id request)).run cluster).2 := by
  rw [World.onBroker?_run]
  cases hbroker : cluster.brokers[id]? with
  | none => exact .none rfl
  | some broker =>
      simp only [BrokerState.commit_run]
      cases broker.outage with
      | some reason => exact .none (ClusterState.quiet_insert hbroker rfl)
      | none => exact .store hsends hbroker

/-- A commit changes the cluster by its request, if at all. -/
theorem World.commit_change {edits : ClusterEdit → Prop} {sends : OffsetCommit.Request → Prop}
    {group topic : String} {batch : List Progress}
    (hsends : sends (OffsetCommit.request group topic batch)) (world : World) :
    Change edits sends world.cluster
      ((Commitment.commit World.clusterView group topic batch).runFrom world).2.cluster := by
  rw [World.commit_run]
  cases world.cluster.coordinator group with
  | error cause => exact .none rfl
  | ok id =>
      dsimp only
      split
      · exact .none rfl
      · have hstored : Change edits sends world.cluster
            (((World.coordinator id).commit OffsetCommit.version
              (OffsetCommit.request group topic batch)).run world).2.cluster := by
          change Change edits sends world.cluster ((World.onBroker id _).run world).2.cluster
          rw [World.onBroker_cluster]
          exact change_onBroker?_commit hsends id world.cluster
        generalize ((World.coordinator id).commit OffsetCommit.version
          (OffsetCommit.request group topic batch)).run world = outcome at hstored ⊢
        rcases outcome with ⟨answer, reached⟩
        cases answer <;> exact hstored

/-- A call changes the cluster by its own edit or request, if at all. -/
theorem changesBy_call (call : Call) :
    ChangesBy (fun edit => (Step.call call).edit? = some edit)
      (fun request => (Step.call call).request? = some request)
      (call.run World.clusterView World.registryView) := by
  have hregistry := World.registryView_queriesKeep World.cluster
  cases call with
  | console call =>
      cases call with
      | progress group topic =>
          refine ChangesBy.answer (ChangesBy.overCluster fun world => ?_) CallAnswer.progress
          exact .none (World.keeps_progressOn group topic world)
      | commit group topic batch =>
          refine ChangesBy.answer (ChangesBy.overCluster fun world => ?_) CallAnswer.committed
          refine World.commit_change ?_ world
          rfl
      | owners group topic =>
          refine ChangesBy.answer (ChangesBy.overRegistry fun links world => ?_) CallAnswer.owners
          exact Ownership.keeps_scan hregistry links.settings.registry.chroot group topic world
      | ownersByGroup topic =>
          refine ChangesBy.answer (ChangesBy.overRegistry fun links world => ?_)
            CallAnswer.ownersByGroup
          exact Ownership.keeps_scanGroups hregistry links.settings.registry.chroot topic world
      | close =>
          refine ChangesBy.answer (ChangesBy.close ?_) fun _ => CallAnswer.closed
          rfl
  | direct call =>
      apply ChangesBy.lift
      intro world
      cases call with
      | survey topic => exact .none (World.keeps_survey topic world)
      | fetchMarks group topic partitions => exact .none (World.keeps_fetch group topic partitions world)
      | commit group topic batch =>
          refine World.commit_change ?_ world
          rfl
      | scan chroot group topic =>
          exact .none (congrArg ClusterState.quiet
            (Ownership.keeps_scan hregistry chroot group topic world))
      | scanGroups chroot topic =>
          exact .none (congrArg ClusterState.quiet
            (Ownership.keeps_scanGroups hregistry chroot topic world))

/-! ## Steps -/

/-- A session both of whose users connect to its own world. -/
structure Session.Wired (session : Session) : Prop where
  console : Simulated.Wired session.console
  links : Simulated.Wired session.links

theorem Session.Wired.start (settings : Settings) : (Session.start settings).Wired :=
  ⟨.fresh settings, .fresh settings⟩

/-- Of the requests to a broker only a commit changes what queries see. -/
theorem change_onBroker? {edits : ClusterEdit → Prop} {sends : OffsetCommit.Request → Prop}
    (id : Int32) (request : BrokerRequest)
    (hsends : ∀ sent, request = .commit sent → sends sent) (cluster : ClusterState) :
    Change edits sends cluster ((World.onBroker? id (request.run id)).run cluster).2 := by
  have hquery : Keeps BrokerState.quiet (request.run id) →
      Change edits sends cluster ((World.onBroker? id (request.run id)).run cluster).2 :=
    fun hkeeps => .none (World.keeps_onBroker? hkeeps id cluster)
  cases request with
  | mark group place => exact hquery fun _ => rfl
  | listCalls => exact hquery fun _ => rfl
  | coordinatorId => exact hquery fun _ => rfl
  | listOffsets request => exact hquery ((BrokerState.keeps_listOffsets id request).bind fun _ => Keeps.pure _)
  | fetch request => exact hquery ((BrokerState.keeps_fetch id request).bind fun _ => Keeps.pure _)
  | commit request =>
      have hchange : Change edits sends cluster _ :=
        change_onBroker?_commit (hsends request rfl) id cluster
      rw [World.onBroker?_run] at hchange ⊢
      cases hbroker : cluster.brokers[id]? with
      | none => exact .none rfl
      | some broker =>
          rw [hbroker] at hchange
          exact hchange

theorem editCluster_session (edit : ClusterEdit) (session : Session) :
    ((Session.step (.editCluster edit)).run session).2 =
      { session with
        world := { session.world with cluster := edit.apply session.world.cluster } } := by
  cases edit <;> rfl

theorem editBroker_session (id : Int32) (edit : BrokerEdit) (session : Session) :
    ((Session.step (.editBroker id edit)).run session).2 =
      if id ∈ session.world.cluster.brokers then
        { session with
          world :=
            { session.world with
              cluster := (ClusterEdit.broker id edit).apply session.world.cluster } }
      else session := by
  have hstep : (Session.step (.editBroker id edit)).run session =
      (if id ∈ session.world.cluster.brokers then
        Session.editCluster (.broker id edit)
      else
        pure .noBroker : StateM Session Answer).run session := rfl
  rw [hstep]
  split <;> rfl

theorem Session.Wired.world {session : Session} (hwired : session.Wired) (world : World) :
    { session with world }.Wired :=
  ⟨hwired.console, hwired.links⟩

/-- Of the steps over links only closing them changes what queries see. -/
theorem Session.Wired.link {session : Session} (hwired : session.Wired) (step : LinkStep) :
    ((Session.step (.link step)).run session).2.Wired ∧
      Change (fun edit => (Step.link step).edit? = some edit)
        (fun request => (Step.link step).request? = some request)
        session.world.cluster ((Session.step (.link step)).run session).2.world.cluster := by
  cases step with
  | refuse on => exact ⟨hwired.world _, .none rfl⟩
  | connects => exact ⟨hwired, .none rfl⟩
  | closed => exact ⟨hwired, .none rfl⟩
  | reachCluster =>
      obtain ⟨_, after, reached, hrun, hafter, hsame, -⟩ := hwired.links.reachCluster session.world
      have hstep : ((Session.step (.link .reachCluster)).run session).2 =
          { session with
            links := (Links.reachCluster.runFrom session.links session.world).1.2
            world := (Links.reachCluster.runFrom session.links session.world).2 } := rfl
      rw [hstep, hrun]
      exact ⟨⟨hwired.console, hafter⟩, .none (congrArg ClusterState.quiet hsame)⟩
  | reachRegistry =>
      obtain ⟨_, after, reached, hrun, hafter, hsame, -⟩ := hwired.links.reachRegistry session.world
      have hstep : ((Session.step (.link .reachRegistry)).run session).2 =
          { session with
            links := (Links.reachRegistry.runFrom session.links session.world).1.2
            world := (Links.reachRegistry.runFrom session.links session.world).2 } := rfl
      rw [hstep, hrun]
      exact ⟨⟨hwired.console, hafter⟩, .none (congrArg ClusterState.quiet hsame)⟩
  | close =>
      have hclose : ChangesBy (fun edit => (Step.link .close).edit? = some edit)
          (fun request => (Step.link .close).request? = some request) Links.close :=
        ChangesBy.close rfl
      obtain ⟨hlinks, hchange⟩ := hclose session.links session.world hwired.links
      exact ⟨⟨hwired.console, hlinks⟩, hchange⟩
  | settings => exact ⟨hwired, .none rfl⟩
  | renew settings => exact ⟨⟨.fresh settings, .fresh settings⟩, .none rfl⟩

/-- A step keeps the users of a session to its world, and changes the cluster by its own edit or
request, if at all. -/
theorem Session.Wired.step {session : Session} (hwired : session.Wired) (step : Step) :
    ((Session.step step).run session).2.Wired ∧
      Change (fun edit => step.edit? = some edit) (fun request => step.request? = some request)
        session.world.cluster ((Session.step step).run session).2.world.cluster := by
  cases step with
  | call call =>
      obtain ⟨hconsole, hchange⟩ := changesBy_call call session.console session.world hwired.console
      exact ⟨⟨hconsole, hwired.links⟩, hchange⟩
  | editCluster edit =>
      rw [editCluster_session edit session]
      exact ⟨hwired.world _, .edit edit rfl⟩
  | askCluster query => exact ⟨hwired, .none rfl⟩
  | editBroker id edit =>
      rw [editBroker_session id edit session]
      split
      · exact ⟨hwired.world _, .edit (.broker id edit) rfl⟩
      · exact ⟨hwired, .none rfl⟩
  | askBroker id request =>
      refine ⟨hwired.world _, change_onBroker? id request (fun sent hsent => ?_) session.world.cluster⟩
      rw [hsent]
      rfl
  | editRegistry edit => exact ⟨hwired.world _, .none rfl⟩
  | askRegistry query => exact ⟨hwired, .none rfl⟩
  | link step => exact hwired.link step

end ConsumerGroups.Simulated
