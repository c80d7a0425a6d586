import ConsumerGroups.Proofs.Range.Share
import ConsumerGroups.Proofs.Simulated.Footprints

/-! # Tasks are made of calls

A survey, a fetch of marks and a scan can be done call by call, and so can whatever is made of them.
Every broker that they ask is a broker of the world. A commit can be done so as well; its request is
the only call that stores anything.
-/

namespace ConsumerGroups.Simulated

open Message Range

/-- The calls on the world that tasks are made of. -/
inductive TaskCall : (β : Type) → StateM World β → Prop
  | ask {β : Type} {action : StateM World β} (hask : AskCall β action) : TaskCall β action
  | commit (id : Int32) (version : Int16) (request : OffsetCommit.Request) :
      TaskCall _ ((World.coordinator id).commit version request)

theorem TaskCall.of_asks {α : Type} {ends : α → Prop} {task : StateM World α}
    (htask : MadeOf AskCall ends task) : MadeOf TaskCall ends task :=
  htask.mono fun _ _ => .ask

namespace World

/-! ## Tasks over the cluster -/

theorem madeOf_leader (topic : String) (partition : Int32) :
    MadeOf AskCall (IfOk fun leader => ∃ id, leader = World.broker id)
      (clusterView.leader topic partition) := by
  refine MadeOf.call (.leader topic partition) fun world => ?_
  change IfOk _ ((world.cluster.leader ⟨topic, partition⟩).map World.broker)
  cases world.cluster.leader ⟨topic, partition⟩ with
  | error cause => trivial
  | ok id => exact ⟨id, rfl⟩

theorem madeOf_coordinator (group : String) :
    MadeOf AskCall (IfOk fun coordinator => ∃ id, coordinator = World.coordinator id)
      (clusterView.coordinator group) := by
  refine MadeOf.call (.coordinator group) fun world => ?_
  change IfOk _ ((world.cluster.coordinator group).map World.coordinator)
  cases world.cluster.coordinator group with
  | error cause => trivial
  | ok id => exact ⟨id, rfl⟩

/-- Only brokers of the world are found to lead partitions. -/
theorem madeOf_findLeaders (topic : String) (index : Nat) (partitions : List Int32) :
    MadeOf AskCall (IfOk fun leds => ∀ led ∈ leds, ∃ id, led.leader = World.broker id)
      (findLeaders clusterView topic index partitions).run := by
  induction partitions generalizing index with
  | nil => exact .pure (List.forall_mem_nil _)
  | cons partition rest ih =>
      refine ((madeOf_leader topic partition).await _).errand_bind fun leader hleader => ?_
      refine (ih (index + 1)).errand_bind fun others hothers => .pure ?_
      exact List.forall_mem_cons.mpr ⟨hleader, hothers⟩

theorem madeOf_listOffsets (id : Int32) (version : Int16) (request : ListOffsets.Request) :
    MadeOf AskCall (fun _ => True) ((World.broker id).listOffsets version request) := by
  have hsend : MadeOf AskCall (fun _ => True) (send id) := MadeOf.call (.send id) fun _ => trivial
  rw [listOffsets_eq]
  exact hsend.bind fun _ _ => MadeOf.call (.answer id request) fun _ => trivial

theorem madeOf_shareSurvey (topic : String) {share : Share World}
    (hbroker : ∃ id, share.broker = World.broker id) :
    MadeOf AskCall (fun _ => True) (share.survey topic) := by
  rcases share with ⟨broker, places⟩
  obtain ⟨id, rfl⟩ := hbroker
  have hask (boundary : Boundary) :
      MadeOf AskCall (fun _ => True) (Share.ask topic ⟨World.broker id, places⟩ boundary) :=
    (madeOf_listOffsets id _ _).bind fun _ _ => .pure trivial
  refine (hask .oldest).bind fun oldest _ => ?_
  split
  · exact .pure trivial
  · exact (hask .newest).bind fun _ _ => .pure trivial

theorem madeOf_survey (topic : String) :
    MadeOf AskCall (IfOk fun _ => True) (survey clusterView topic).run := by
  have hlisted : MadeOf AskCall (IfOk fun _ => True) (clusterView.partitions topic) :=
    MadeOf.call (.partitions topic) fun _ => ifOk_true _
  refine (hlisted.await _).errand_bind fun partitions _ => ?_
  split
  · exact .pure trivial
  · refine (madeOf_findLeaders topic 0 partitions).errand_bind fun leds hleds => ?_
    refine (MadeOf.mapM fun share hshare => madeOf_shareSurvey topic ?_).bind fun _ _ =>
      .pure (ifOk_true _)
    -- The broker of a share leads a partition.
    rw [Share.divide_eq] at hshare
    obtain ⟨leader, hleader, rfl⟩ := List.mem_map.mp hshare
    obtain ⟨led, hled, rfl⟩ := List.mem_map.mp (mem_of_mem_firstsBy hleader)
    exact hleds led hled

theorem madeOf_fetch (group topic : String) (partitions : List Int32) :
    MadeOf AskCall (IfOk fun _ => True)
      (Commitment.fetch clusterView group topic partitions).run := by
  refine ((madeOf_coordinator group).await _).errand_bind fun coordinator hcoordinator => ?_
  obtain ⟨id, rfl⟩ := hcoordinator
  have hfetch : MadeOf AskCall (IfOk fun _ => True)
      ((World.coordinator id).fetch OffsetFetch.version
        (OffsetFetch.request group topic partitions)) :=
    MadeOf.call (.fetch id _ _) fun _ => ifOk_true _
  exact (hfetch.await _).errand_bind fun response _ => .pure (ifOk_true _)

theorem madeOf_progressOn (group topic : String) :
    MadeOf AskCall (IfOk fun _ => True) (Console.progressOn clusterView group topic).run := by
  refine (madeOf_survey topic).errand_bind fun ranges _ => ?_
  split
  · exact .pure trivial
  · exact (madeOf_fetch group topic _).errand_bind fun marks _ => .pure trivial

theorem madeOf_commit (group topic : String) (batch : List Progress) :
    MadeOf TaskCall (IfOk fun _ => True)
      (Commitment.commit clusterView group topic batch).run := by
  have hfound := TaskCall.of_asks (madeOf_coordinator group)
  refine (hfound.await _).errand_bind fun coordinator hcoordinator => ?_
  obtain ⟨id, rfl⟩ := hcoordinator
  have hcommit : MadeOf TaskCall (IfOk fun _ => True)
      ((World.coordinator id).commit OffsetCommit.version
        (OffsetCommit.request group topic batch)) :=
    MadeOf.call (.commit id _ _) fun _ => ifOk_true _
  split
  · exact .pure trivial
  · exact (hcommit.await _).errand_bind fun response _ => .pure (ifOk_true _)

/-! ## Scans of the registry -/

theorem madeOf_children (path : String) :
    MadeOf AskCall (fun _ => True) (registryView.children path) :=
  MadeOf.call (.children path) fun _ => trivial

theorem madeOf_claimNode (chroot group topic : String) (ownership : Ownership) (node : String) :
    MadeOf AskCall (IfOk fun _ => True)
      (Ownership.claimNode registryView chroot group topic ownership node).run := by
  have hpartition : MadeOf AskCall (IfOk fun _ => True)
      (Errand.ofExcept (Ownership.partitionOfNode node) : Errand World Int32).run :=
    .pure (ifOk_true _)
  have hread (context : Context) (path : String) : MadeOf AskCall (IfOk fun _ => True)
      (Ownership.readNode registryView context path).run := by
    have hbytes : MadeOf AskCall (fun _ => True) (registryView.read path) :=
      MadeOf.call (.read path) fun _ => trivial
    exact hbytes.bind fun _ _ => .pure (ifOk_true _)
  exact hpartition.errand_bind fun partition _ =>
    (hread _ _).errand_bind fun client _ => .pure trivial

theorem madeOf_scan (chroot group topic : String) :
    MadeOf AskCall (IfOk fun _ => True) (Ownership.scan registryView chroot group topic).run := by
  have hnodes : MadeOf AskCall (IfOk fun _ => True)
      (Ownership.ownerNodes registryView chroot group topic).run := by
    refine (madeOf_children _).bind fun listing _ => ?_
    split <;> exact .pure trivial
  exact hnodes.errand_bind fun nodes _ =>
    .errand_foldlM (madeOf_claimNode chroot group topic) nodes ∅

theorem madeOf_scanGroup (chroot topic : String) (found : GroupOwnership) (group : String) :
    MadeOf AskCall (IfOk fun _ => True)
      (Ownership.scanGroup registryView chroot topic found group).run := by
  have hscan : MadeOf AskCall (IfOk fun _ => True)
      (Ownership.scan registryView chroot group topic).attempt.run :=
    (madeOf_scan chroot group topic).bind fun _ _ => .pure trivial
  refine hscan.errand_bind fun result _ => ?_
  cases result with
  | ok ownership => exact .pure trivial
  | error failure =>
      dsimp only
      split <;> exact .pure trivial

theorem madeOf_scanGroups (chroot topic : String) :
    MadeOf AskCall (IfOk fun _ => True) (Ownership.scanGroups registryView chroot topic).run := by
  have hgroups : MadeOf AskCall (IfOk fun _ => True)
      (Ownership.registeredGroups registryView chroot).run :=
    (madeOf_children _).bind fun _ _ => .pure (ifOk_true _)
  exact hgroups.errand_bind fun groups _ =>
    .errand_foldlM (madeOf_scanGroup chroot topic) groups ∅

end World

end ConsumerGroups.Simulated
