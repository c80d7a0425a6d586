import ConsumerGroups.Call
import ConsumerGroups.Recording
import ConsumerGroups.Proofs.Links
import ConsumerGroups.Proofs.Range.Leaders

/-! # Recording changes nothing

An action over recorded collaborators does what it does over the collaborators inside, and comes
to the same. All that is added is the log.
-/

namespace ConsumerGroups

open Range Results

variable {σ α β α' β' : Type}

theorem except_map_id {ε : Type} : (Except.map id : Except ε α → Except ε α) = id := by
  funext result
  cases result <;> rfl

/-- A recorded action that gives the answer of another, up to a function, and goes the same way
through the states inside. -/
def Mirrors (f : α → α') (action : StateM σ α) (recording : StateM (Recorded σ) α') : Prop :=
  ∀ recorded, (recording.run recorded).1 = f (action.run recorded.state).1 ∧
    (recording.run recorded).2.state = (action.run recorded.state).2

namespace Mirrors

theorem pure (f : α → α') (value : α) :
    Mirrors f (Pure.pure value : StateM σ α) (Pure.pure (f value)) :=
  fun _ => ⟨rfl, rfl⟩

theorem call (exchange : α → Exchange) (action : StateM σ α) :
    Mirrors id action (Recorded.call exchange action) :=
  fun _ => ⟨rfl, rfl⟩

theorem bind {f : α → α'} {g : β → β'} {action : StateM σ α} {recording : StateM (Recorded σ) α'}
    {next : α → StateM σ β} {next' : α' → StateM (Recorded σ) β'}
    (haction : Mirrors f action recording) (hnext : ∀ value, Mirrors g (next value) (next' (f value))) :
    Mirrors g (action >>= next) (recording >>= next') := by
  intro recorded
  obtain ⟨hvalue, hstate⟩ := haction recorded
  obtain ⟨hresult, hreached⟩ := hnext (action.run recorded.state).1 (recording.run recorded).2
  rw [bind_run, bind_run, hvalue, ← hstate]
  exact ⟨hresult, hreached⟩

theorem mapM {g : β → β'} {ask : α → StateM σ β} {ask' : α' → StateM (Recorded σ) β'} {f : α → α'}
    (hask : ∀ item, Mirrors g (ask item) (ask' (f item))) (items : List α) :
    Mirrors (List.map g) (items.mapM ask) ((items.map f).mapM ask') := by
  induction items with
  | nil => exact Mirrors.pure (List.map g) []
  | cons item rest ih =>
      rw [List.map_cons, List.mapM_cons, List.mapM_cons]
      exact (hask item).bind fun value => ih.bind fun others => Mirrors.pure (List.map g) (value :: others)

/-! ## Errands -/

theorem errand_bind {f : α → α'} {g : β → β'} {errand : Errand σ α}
    {recording : Errand (Recorded σ) α'} {next : α → Errand σ β}
    {next' : α' → Errand (Recorded σ) β'} (herrand : Mirrors (Except.map f) errand.run recording.run)
    (hnext : ∀ value, Mirrors (Except.map g) (next value).run (next' (f value)).run) :
    Mirrors (Except.map g) (errand >>= next).run (recording >>= next').run := by
  rw [ExceptT.run_bind, ExceptT.run_bind]
  refine herrand.bind fun result => ?_
  cases result with
  | error failure => exact Mirrors.pure (Except.map g) (.error failure)
  | ok value => exact hnext value

theorem await {f : α → α'} {reply : StateM σ (Reply α)} {recording : StateM (Recorded σ) (Reply α')}
    (hreply : Mirrors (Except.map f) reply recording) (context : Context) :
    Mirrors (Except.map f) (Errand.await context reply).run (Errand.await context recording).run := by
  refine hreply.bind fun answer => ?_
  cases answer <;> exact Mirrors.pure (Except.map f) _

theorem callReply (exchange : Reply α → Exchange) (action : StateM σ (Reply α)) :
    Mirrors (Except.map id) action (Recorded.call exchange action) := by
  rw [except_map_id]
  exact Mirrors.call exchange action

theorem attempt {errand : Errand σ α} {recording : Errand (Recorded σ) α}
    (herrand : Mirrors (Except.map id) errand.run recording.run) :
    Mirrors (Except.map id) errand.attempt.run recording.attempt.run := by
  refine herrand.bind fun result => ?_
  cases result <;> exact Mirrors.pure (Except.map id) _

theorem foldlM {next : β → α → Errand σ β} {next' : β → α → Errand (Recorded σ) β}
    (hnext : ∀ value item, Mirrors (Except.map id) (next value item).run (next' value item).run)
    (items : List α) (start : β) :
    Mirrors (Except.map id) (items.foldlM next start).run (items.foldlM next' start).run := by
  induction items generalizing start with
  | nil => exact Mirrors.pure (Except.map id) (.ok start)
  | cons item rest ih =>
      rw [List.foldlM_cons, List.foldlM_cons]
      exact (hnext start item).errand_bind ih

end Mirrors

/-! ## Surveys and marks -/

namespace Range

def Led.recorded (led : Led σ) : Led (Recorded σ) :=
  { index := led.index, partition := led.partition, leader := led.leader.recorded }

def Share.recorded (share : Share σ) : Share (Recorded σ) :=
  { broker := share.broker.recorded, places := share.places }

theorem mirrors_findLeaders (cluster : Cluster σ) (topic : String) (start : Nat)
    (partitions : List Int32) :
    Mirrors (Except.map (List.map Led.recorded)) (findLeaders cluster topic start partitions).run
      (findLeaders cluster.recorded topic start partitions).run := by
  induction partitions generalizing start with
  | nil => exact Mirrors.pure (Except.map (List.map Led.recorded)) (.ok [])
  | cons partition rest ih =>
      rw [findLeaders, findLeaders]
      have hleader : Mirrors (Except.map Broker.recorded) (cluster.leader topic partition)
          (cluster.recorded.leader topic partition) :=
        fun _ => ⟨rfl, rfl⟩
      refine (hleader.await _).errand_bind fun leader => (ih (start + 1)).errand_bind fun others => ?_
      exact Mirrors.pure (Except.map (List.map Led.recorded))
        (.ok ({ index := start, partition, leader } :: others))

theorem Share.of_recorded (leds : List (Led σ)) (broker : Broker σ) :
    Share.of (leds.map Led.recorded) broker.recorded = (Share.of leds broker).recorded := by
  simp only [Share.of, Share.recorded, List.filter_map, List.map_map]
  rfl

theorem Share.divide_recorded (leds : List (Led σ)) :
    Share.divide (leds.map Led.recorded) = (Share.divide leds).map Share.recorded := by
  have hleaders : (leds.map Led.recorded).map Led.leader =
      (leds.map Led.leader).map Broker.recorded := by
    simp only [List.map_map]
    rfl
  rw [Share.divide_eq, Share.divide_eq, hleaders, firstsBy_map, List.map_map, List.map_map]
  exact List.map_congr_left fun broker _ => Share.of_recorded leds broker

theorem mirrors_shareSurvey (topic : String) (share : Share σ) :
    Mirrors id (share.survey topic) (share.recorded.survey topic) := by
  have hask (boundary : Boundary) :
      Mirrors id (share.ask topic boundary) (share.recorded.ask topic boundary) :=
    (Mirrors.call _ _).bind fun reply => Mirrors.pure id _
  refine (hask .oldest).bind fun oldest => ?_
  dsimp only [id]
  split
  · exact Mirrors.pure id _
  · exact (hask .newest).bind fun newest => Mirrors.pure id _

theorem mirrors_survey (cluster : Cluster σ) (topic : String) :
    Mirrors (Except.map id) (survey cluster topic).run (survey cluster.recorded topic).run := by
  refine ((Mirrors.callReply _ _).await _).errand_bind fun partitions => ?_
  dsimp only [id]
  split
  · exact Mirrors.pure (Except.map id) (.ok [])
  · refine (mirrors_findLeaders cluster topic 0 partitions).errand_bind fun leds => ?_
    rw [Share.divide_recorded]
    refine (Mirrors.mapM (mirrors_shareSurvey topic) (Share.divide leds)).bind fun outcomes => ?_
    rw [List.map_id, except_map_id]
    exact Mirrors.pure id _

end Range

namespace Commitment

theorem mirrors_ofExcept (result : Except Failure α) :
    Mirrors (Except.map id) (Errand.ofExcept result : Errand σ α).run
      (Errand.ofExcept result : Errand (Recorded σ) α).run := by
  rw [except_map_id]
  exact Mirrors.pure id result

theorem mirrors_coordinator (cluster : Cluster σ) (group : String) :
    Mirrors (Except.map Coordinator.recorded) (cluster.coordinator group)
      (cluster.recorded.coordinator group) :=
  fun _ => ⟨rfl, rfl⟩

theorem mirrors_fetch (cluster : Cluster σ) (group topic : String) (partitions : List Int32) :
    Mirrors (Except.map id) (fetch cluster group topic partitions).run
      (fetch cluster.recorded group topic partitions).run := by
  refine ((mirrors_coordinator cluster group).await _).errand_bind fun coordinator => ?_
  refine ((Mirrors.callReply _ _).await _).errand_bind fun response => ?_
  exact mirrors_ofExcept _

theorem mirrors_commit (cluster : Cluster σ) (group topic : String) (batch : List Progress) :
    Mirrors (Except.map id) (commit cluster group topic batch).run
      (commit cluster.recorded group topic batch).run := by
  refine ((mirrors_coordinator cluster group).await _).errand_bind fun coordinator => ?_
  split
  · exact Mirrors.pure (Except.map id) (.ok ())
  · refine ((Mirrors.callReply _ _).await _).errand_bind fun response => ?_
    exact mirrors_ofExcept _

end Commitment

theorem Console.mirrors_progressOn (cluster : Cluster σ) (group topic : String) :
    Mirrors (Except.map id) (progressOn cluster group topic).run
      (progressOn cluster.recorded group topic).run := by
  refine (mirrors_survey cluster topic).errand_bind fun ranges => ?_
  dsimp only [id]
  split
  · exact Mirrors.pure (Except.map id) (.ok ranges)
  · refine (Commitment.mirrors_fetch cluster group topic _).errand_bind fun marks => ?_
    exact Mirrors.pure (Except.map id) (.ok _)

/-! ## Scans -/

namespace Ownership

theorem mirrors_scan (registry : Registry σ) (chroot group topic : String) :
    Mirrors (Except.map id) (scan registry chroot group topic).run
      (scan registry.recorded chroot group topic).run := by
  have hnodes : Mirrors (Except.map id) (ownerNodes registry chroot group topic).run
      (ownerNodes registry.recorded chroot group topic).run := by
    refine (Mirrors.call _ _).bind fun listing => ?_
    rcases listing with (_ | cause) | nodes <;> exact Mirrors.pure (Except.map id) _
  refine hnodes.errand_bind fun nodes => Mirrors.foldlM (fun ownership node => ?_) nodes ∅
  refine (Commitment.mirrors_ofExcept _).errand_bind fun partition => ?_
  refine Mirrors.errand_bind (f := id) ?_ fun client => Mirrors.pure (Except.map id) (.ok _)
  refine (Mirrors.call _ _).bind fun bytes => ?_
  rw [except_map_id]
  exact Mirrors.pure id _

theorem mirrors_scanGroups (registry : Registry σ) (chroot topic : String) :
    Mirrors (Except.map id) (scanGroups registry chroot topic).run
      (scanGroups registry.recorded chroot topic).run := by
  have hgroups : Mirrors (Except.map id) (registeredGroups registry chroot).run
      (registeredGroups registry.recorded chroot).run := by
    refine (Mirrors.call _ _).bind fun listing => ?_
    rw [except_map_id]
    exact Mirrors.pure id _
  refine hgroups.errand_bind fun groups => Mirrors.foldlM (fun found group => ?_) groups ∅
  refine (mirrors_scan registry chroot group topic).attempt.errand_bind fun result => ?_
  rw [except_map_id]
  cases result with
  | ok ownership => exact Mirrors.pure id _
  | error failure =>
      dsimp only [id]
      split <;> exact Mirrors.pure id _

end Ownership

/-! ## Links -/

/-- Links whose dialer and connections record their calls. -/
def Links.recorded (links : Links σ) : Links (Recorded σ) where
  settings := links.settings
  dialer := links.dialer.recorded
  slots :=
    { cluster := links.slots.cluster.map Cluster.recorded
      registry := links.slots.registry.map Registry.recorded
      closed := links.slots.closed }

/-- An action over recorded links that mirrors one over the links inside. -/
def MirrorsOver (f : α → α') (action : StateT (Links σ) (StateM σ) α)
    (recording : StateT (Links (Recorded σ)) (StateM (Recorded σ)) α') : Prop :=
  ∀ links, Mirrors (Prod.map f Links.recorded) (action.run links) (recording.run links.recorded)

namespace MirrorsOver

theorem ofTask {task : Errand σ α} {recording : Errand (Recorded σ) α}
    (htask : Mirrors (Except.map id) task.run recording.run) :
    MirrorsOver (Except.map id) (LinkedErrand.ofTask task).run
      (LinkedErrand.ofTask recording).run := by
  intro links recorded
  obtain ⟨hresult, hstate⟩ := htask recorded
  exact ⟨Prod.ext hresult rfl, hstate⟩

theorem bind {f : α → α'} {g : β → β'} {errand : LinkedErrand σ α}
    {recording : LinkedErrand (Recorded σ) α'} {next : α → LinkedErrand σ β}
    {next' : α' → LinkedErrand (Recorded σ) β'}
    (herrand : MirrorsOver (Except.map f) errand.run recording.run)
    (hnext : ∀ value, MirrorsOver (Except.map g) (next value).run (next' (f value)).run) :
    MirrorsOver (Except.map g) (errand >>= next).run (recording >>= next').run := by
  intro links
  rw [ExceptT.run_bind, ExceptT.run_bind, StateT.run_bind, StateT.run_bind]
  refine (herrand links).bind fun outcome => ?_
  rcases outcome with ⟨result, reached⟩
  cases result with
  | error failure => exact Mirrors.pure (Prod.map (Except.map g) Links.recorded) (.error failure, reached)
  | ok value => exact hnext value reached

theorem answer {action : StateT (Links σ) (StateM σ) (Except Failure α)}
    {recording : StateT (Links (Recorded σ)) (StateM (Recorded σ)) (Except Failure α)}
    (haction : MirrorsOver (Except.map id) action recording) (g : Except Failure α → β) :
    MirrorsOver id (action >>= fun value => Pure.pure (g value))
      (recording >>= fun value => Pure.pure (g value)) := by
  rw [except_map_id] at haction
  intro links recorded
  obtain ⟨hvalue, hstate⟩ := haction links recorded
  exact ⟨congrArg (Prod.map g id) hvalue, hstate⟩

end MirrorsOver

/-- What recorded slots hold is recorded. -/
def Access.recorded {κ κ' : Type} (wrap : κ → κ') : Access κ → Access κ'
  | .closed => .closed
  | .connected handle => .connected (wrap handle)
  | .empty => .empty

namespace Links

theorem clusterAccess_recorded (links : Links σ) :
    links.recorded.slots.clusterAccess = links.slots.clusterAccess.recorded Cluster.recorded := by
  rcases links with ⟨settings, dialer, ⟨cluster, registry, closed⟩⟩
  cases closed <;> cases cluster <;> rfl

theorem registryAccess_recorded (links : Links σ) :
    links.recorded.slots.registryAccess = links.slots.registryAccess.recorded Registry.recorded := by
  rcases links with ⟨settings, dialer, ⟨cluster, registry, closed⟩⟩
  cases closed <;> cases registry <;> rfl

/-- Reaching a recorded cluster records the attempt to connect, if one is made. -/
theorem reachCluster_recorded (links : Links σ) (recorded : Recorded σ) :
    reachCluster.runFrom links.recorded recorded =
      let reached := reachCluster.runFrom links recorded.state
      ((reached.1.1.map Cluster.recorded, reached.1.2.recorded),
        ⟨reached.2, recorded.log ++
          match links.slots.clusterAccess with
          | .empty =>
            let answer := ((links.dialer.cluster links.settings.cluster).run recorded.state).1
            [.connectCluster links.settings.cluster (answer.map fun _ => ())]
          | _ => []⟩) := by
  have hdialed : (links.recorded.dialer.cluster links.recorded.settings.cluster).run recorded =
      let answer := (links.dialer.cluster links.settings.cluster).run recorded.state
      (answer.1.map Cluster.recorded, ⟨answer.2, recorded.log ++
        [.connectCluster links.settings.cluster (answer.1.map fun _ => ())]⟩) := rfl
  rw [reachCluster_run, reachCluster_run, clusterAccess_recorded, hdialed]
  cases links.slots.clusterAccess with
  | closed => simp [Access.recorded, Except.map]
  | connected cluster => simp [Access.recorded, Except.map]
  | empty =>
      rcases (links.dialer.cluster links.settings.cluster).run recorded.state with ⟨answer, state⟩
      cases answer <;> rfl

/-- Reaching a recorded registry records the attempt to connect, if one is made. -/
theorem reachRegistry_recorded (links : Links σ) (recorded : Recorded σ) :
    reachRegistry.runFrom links.recorded recorded =
      let reached := reachRegistry.runFrom links recorded.state
      ((reached.1.1.map Registry.recorded, reached.1.2.recorded),
        ⟨reached.2, recorded.log ++
          match links.slots.registryAccess with
          | .empty =>
            let answer := ((links.dialer.registry links.settings.registry).run recorded.state).1
            [.connectRegistry links.settings.registry (answer.map fun _ => ())]
          | _ => []⟩) := by
  have hdialed : (links.recorded.dialer.registry links.recorded.settings.registry).run recorded =
      let answer := (links.dialer.registry links.settings.registry).run recorded.state
      (answer.1.map Registry.recorded, ⟨answer.2, recorded.log ++
        [.connectRegistry links.settings.registry (answer.1.map fun _ => ())]⟩) := rfl
  rw [reachRegistry_run, reachRegistry_run, registryAccess_recorded, hdialed]
  cases links.slots.registryAccess with
  | closed => simp [Access.recorded, Except.map]
  | connected registry => simp [Access.recorded, Except.map]
  | empty =>
      rcases (links.dialer.registry links.settings.registry).run recorded.state with
        ⟨answer, state⟩
      cases answer <;> rfl

theorem mirrors_reachCluster :
    MirrorsOver (Except.map Cluster.recorded) (reachCluster : LinkedErrand σ (Cluster σ)).run
      reachCluster.run := by
  intro links recorded
  have hrun := reachCluster_recorded links recorded
  exact ⟨congrArg Prod.fst hrun, congrArg (fun outcome => outcome.2.state) hrun⟩

theorem mirrors_reachRegistry :
    MirrorsOver (Except.map Registry.recorded) (reachRegistry : LinkedErrand σ (Registry σ)).run
      reachRegistry.run := by
  intro links recorded
  have hrun := reachRegistry_recorded links recorded
  exact ⟨congrArg Prod.fst hrun, congrArg (fun outcome => outcome.2.state) hrun⟩

theorem mirrors_close : MirrorsOver id (close : StateT (Links σ) (StateM σ) Unit) close := by
  intro links recorded
  have hclosed : links.recorded.slots.closed = links.slots.closed := rfl
  rw [close_run, close_run, hclosed]
  cases links.slots.closed with
  | true => exact ⟨rfl, rfl⟩
  | false =>
      rcases links with ⟨settings, dialer, ⟨cluster, registry, closed⟩⟩
      cases cluster <;> cases registry <;> exact ⟨rfl, rfl⟩

end Links

theorem Console.mirrors_chroot :
    MirrorsOver (Except.map id) (chroot : LinkedErrand σ String).run chroot.run :=
  fun _ _ => ⟨rfl, rfl⟩

/-- A call over recorded links comes to what it comes to over the links inside. -/
theorem ConsoleCall.mirrors_run (call : ConsoleCall) :
    MirrorsOver id (call.run : StateT (Links σ) (StateM σ) CallAnswer) call.run := by
  cases call with
  | progress group topic =>
      exact (Links.mirrors_reachCluster.bind fun cluster =>
        .ofTask (Console.mirrors_progressOn cluster group topic)).answer _
  | commit group topic batch =>
      exact (Links.mirrors_reachCluster.bind fun cluster =>
        .ofTask (Commitment.mirrors_commit cluster group topic batch)).answer _
  | owners group topic =>
      exact (Links.mirrors_reachRegistry.bind fun registry =>
        Console.mirrors_chroot.bind fun chroot =>
          .ofTask (Ownership.mirrors_scan registry chroot group topic)).answer _
  | ownersByGroup topic =>
      exact (Links.mirrors_reachRegistry.bind fun registry =>
        Console.mirrors_chroot.bind fun chroot =>
          .ofTask (Ownership.mirrors_scanGroups registry chroot topic)).answer _
  | close =>
      intro links recorded
      obtain ⟨hlinks, hstate⟩ := Links.mirrors_close links recorded
      exact ⟨congrArg (Prod.map (fun _ => CallAnswer.closed) id) hlinks, hstate⟩

end ConsumerGroups
