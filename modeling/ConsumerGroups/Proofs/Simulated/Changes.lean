import ConsumerGroups.Proofs.Simulated.Storing

/-! # Changes of a simulated cluster

Whatever happens to a cluster, it is one of three things: nothing that a query could see, an
edit, or the marks of one request being stored on one broker. What the marks of a group go
through follows from these.
-/

namespace ConsumerGroups.Simulated

open Message

/-- A change of a cluster by one of the given edits or requests, or by none. -/
inductive Change (edits : ClusterEdit → Prop) (sends : OffsetCommit.Request → Prop)
    (before : ClusterState) : ClusterState → Prop
  | none {after : ClusterState} (hquiet : after.quiet = before.quiet) : Change edits sends before after
  | edit (edit : ClusterEdit) (hedit : edits edit) : Change edits sends before (edit.apply before)
  | store {id : Int32} {broker : BrokerState} {request : OffsetCommit.Request}
      (hrequest : sends request) (hbroker : before.brokers[id]? = some broker) :
      Change edits sends before
        { before with brokers := before.brokers.insert id (broker.storeAll request) }

/-- An edit that makes no broker refuse with the code zero. -/
def ClusterEdit.RefusesByCode : ClusterEdit → Prop
  | .broker _ (.refuseCommit _ code) => code ≠ 0
  | .broker _ (.refuseFetch _ code) => code ≠ 0
  | _ => True

namespace ClusterState

/-! ## Edits -/

theorem getElem?_enlist (cluster : ClusterState) (id other : Int32) :
    (cluster.enlist id).brokers[other]? =
      if id = other then some (cluster.brokers[other]?.getD {}) else cluster.brokers[other]? := by
  unfold enlist
  simp only [Std.ExtTreeMap.getElem?_insertIfNew, Std.LawfulEqOrd.compare_eq_iff_eq]
  by_cases hid : id = other
  · subst hid
    by_cases hmem : id ∈ cluster.brokers
    · obtain ⟨broker, hbroker⟩ := Option.isSome_iff_exists.mp
        (Std.ExtTreeMap.mem_iff_isSome_getElem?.mp hmem)
      simp [hmem]
    · simp [hmem]
  · simp [hid]

theorem getElem?_modifyBroker (cluster : ClusterState) (id : Int32) (f : BrokerState → BrokerState)
    (other : Int32) :
    (cluster.modifyBroker id f).brokers[other]? =
      if id = other then cluster.brokers[other]?.map f else cluster.brokers[other]? := by
  unfold modifyBroker
  simp only [Std.ExtTreeMap.getElem?_modify, Std.LawfulEqOrd.compare_eq_iff_eq]
  by_cases hid : id = other <;> simp [hid]

theorem markOn?_enlist (cluster : ClusterState) (added id : Int32) (group : String)
    (place : TopicPartition) :
    (cluster.enlist added).markOn? id group place = cluster.markOn? id group place := by
  unfold markOn?
  rw [getElem?_enlist]
  by_cases hid : added = id
  · cases cluster.brokers[id]? <;> simp [hid, BrokerState.mark?]
  · simp [hid]

theorem markOn?_modifyBroker {f : BrokerState → BrokerState} (hmarks : ∀ broker, (f broker).marks =
    broker.marks) (cluster : ClusterState) (changed id : Int32) (group : String)
    (place : TopicPartition) :
    (cluster.modifyBroker changed f).markOn? id group place = cluster.markOn? id group place := by
  unfold markOn?
  rw [getElem?_modifyBroker]
  by_cases hid : changed = id
  · cases cluster.brokers[id]? <;> simp [hid, BrokerState.mark?, hmarks]
  · simp [hid]

/-- Edits do not touch marks. -/
theorem markOn?_apply (cluster : ClusterState) (edit : ClusterEdit) (id : Int32) (group : String)
    (place : TopicPartition) :
    (edit.apply cluster).markOn? id group place = cluster.markOn? id group place := by
  cases edit with
  | enlist added => exact markOn?_enlist cluster added id group place
  | openTopic topic => rfl
  | appendPartition added leader log =>
      have hlogs := markOn?_modifyBroker (f := fun broker =>
        { broker with logs := broker.logs.insert added log }) (fun _ => rfl)
        (cluster.enlist leader) leader id group place
      exact hlogs.trans (markOn?_enlist cluster leader id group place)
  | assignCoordinator named added => exact markOn?_enlist cluster added id group place
  | broker changed edit =>
      refine markOn?_modifyBroker (fun broker => ?_) cluster changed id group place
      cases edit <;> rfl
  | close => rfl

/-- A cluster all of whose brokers have a property. -/
def Every (holds : BrokerState → Prop) (cluster : ClusterState) : Prop :=
  ∀ (id : Int32) broker, cluster.brokers[id]? = some broker → holds broker

section Every

variable {holds : BrokerState → Prop} {cluster : ClusterState}

theorem Every.enlist (hall : cluster.Every holds) (hempty : holds {}) (added : Int32) :
    (cluster.enlist added).Every holds := by
  intro id broker hbroker
  rw [getElem?_enlist] at hbroker
  split at hbroker
  · cases hbefore : cluster.brokers[id]? with
    | none =>
        obtain rfl : broker = {} := by simpa [hbefore] using hbroker.symm
        exact hempty
    | some other =>
        obtain rfl : other = broker := by simpa [hbefore] using hbroker
        exact hall id other hbefore
  · exact hall id broker hbroker

theorem Every.modifyBroker (hall : cluster.Every holds) {f : BrokerState → BrokerState}
    (hf : ∀ broker, holds broker → holds (f broker)) (changed : Int32) :
    (cluster.modifyBroker changed f).Every holds := by
  intro id broker hbroker
  rw [getElem?_modifyBroker] at hbroker
  split at hbroker
  · obtain ⟨other, hother, rfl⟩ := Option.map_eq_some_iff.mp hbroker
    exact hf other (hall id other hother)
  · exact hall id broker hbroker

/-- An edit keeps a property of all brokers if new brokers have it, and if new logs and the edit
of a single broker keep it. -/
theorem Every.apply (hall : cluster.Every holds) (hempty : holds {})
    (hlogs : ∀ broker place log, holds broker →
      holds { broker with logs := broker.logs.insert place log })
    {edit : ClusterEdit} (hedit : ∀ id change, edit = .broker id change →
      ∀ broker, holds broker → holds (change.apply broker)) :
    (edit.apply cluster).Every holds := by
  cases edit with
  | enlist added => exact hall.enlist hempty added
  | openTopic topic => exact hall
  | appendPartition added leader log =>
      have hadded : ((cluster.enlist leader).modifyBroker leader fun broker =>
          { broker with logs := broker.logs.insert added log }).Every holds :=
        (hall.enlist hempty leader).modifyBroker (fun broker => hlogs broker added log) leader
      exact hadded
  | assignCoordinator named added => exact hall.enlist hempty added
  | broker changed change => exact hall.modifyBroker (hedit changed change rfl) changed
  | close => exact hall

end Every

theorem forall_getElem?_insert {codes : Table TopicPartition Int16} {place : TopicPartition}
    {code : Int16} (hcode : code ≠ 0)
    (hcodes : ∀ (place : TopicPartition) (code : Int16), codes[place]? = some code → code ≠ 0)
    (other : TopicPartition) (found : Int16) (hfound : (codes.insert place code)[other]? = some found) :
    found ≠ 0 := by
  rw [Std.ExtTreeMap.getElem?_insert] at hfound
  split at hfound
  · cases hfound
    exact hcode
  · exact hcodes other found hfound

/-- Edits that refuse by codes keep a cluster one that does. -/
theorem RefusesByCode.apply {cluster : ClusterState} (hcodes : cluster.RefusesByCode)
    {edit : ClusterEdit} (hedit : edit.RefusesByCode) : (edit.apply cluster).RefusesByCode := by
  refine Every.apply hcodes ⟨by simp, by simp⟩
    (fun broker _ _ hbroker => ⟨hbroker.commits, hbroker.fetches⟩) ?_
  rintro id change rfl broker hbroker
  cases change with
  | refuseCommit place code =>
      exact ⟨forall_getElem?_insert hedit hbroker.commits, hbroker.fetches⟩
  | refuseFetch place code =>
      exact ⟨hbroker.commits, forall_getElem?_insert hedit hbroker.fetches⟩
  | _ => exact ⟨hbroker.commits, hbroker.fetches⟩

end ClusterState

/-! ## Changes -/

namespace Change

variable {edits : ClusterEdit → Prop} {sends : OffsetCommit.Request → Prop}
  {before after : ClusterState}

/-- A change leaves the marks of every topic that none of its requests names. -/
theorem markOn? (hchange : Change edits sends before after) {group topic : String}
    (hothers : ∀ request, sends request → ¬Names request group topic) (id partition : Int32) :
    after.markOn? id group ⟨topic, partition⟩ = before.markOn? id group ⟨topic, partition⟩ := by
  cases hchange with
  | none hquiet => exact ClusterState.markOn?_of_quiet hquiet id group ⟨topic, partition⟩
  | edit edit hedit => exact ClusterState.markOn?_apply before edit id group ⟨topic, partition⟩
  | @store changed broker request hrequest hbroker =>
      rw [ClusterState.markOn?_insert]
      split
      · rename_i hid
        subst hid
        rw [BrokerState.storeAll_mark?_of_not_names (hothers request hrequest)]
        simp [ClusterState.markOn?, hbroker]
      · rfl

/-- A change keeps a property of all brokers that its edits and requests keep, if counts are no
part of it. -/
theorem every (hchange : Change edits sends before after) {holds : BrokerState → Prop}
    (hquiet : ∀ first second : BrokerState, first.quiet = second.quiet → holds first → holds second)
    (hstore : ∀ (broker : BrokerState) request, holds broker → holds (broker.storeAll request))
    (hedits : ∀ edit, edits edit → before.Every holds → (edit.apply before).Every holds)
    (hall : before.Every holds) : after.Every holds := by
  cases hchange with
  | none hsame =>
      intro id broker hbroker
      obtain ⟨other, hother, halike⟩ := ClusterState.exists_broker_of_quiet hsame hbroker
      exact hquiet other broker halike (hall id other hother)
  | edit edit hedit => exact hedits edit hedit hall
  | @store changed broker request hrequest hbroker =>
      intro id other hother
      rw [Std.ExtTreeMap.getElem?_insert] at hother
      split at hother
      · cases hother
        exact hstore broker request (hall changed broker hbroker)
      · exact hall id other hother

/-- A change by edits that refuse by codes keeps a cluster one that does. -/
theorem refusesByCode (hchange : Change edits sends before after)
    (hedits : ∀ edit, edits edit → edit.RefusesByCode) (hcodes : before.RefusesByCode) :
    after.RefusesByCode := by
  refine hchange.every (fun _ _ hsame hbroker => hbroker.of_quiet hsame) (fun broker request hbroker => ?_)
    (fun edit hedit hbefore => ClusterState.RefusesByCode.apply hbefore (hedits edit hedit)) hcodes
  refine ⟨?_, ?_⟩
  · rw [BrokerState.storeAll_commitCodes]
    exact hbroker.commits
  · rw [BrokerState.storeAll_fetchCodes]
    exact hbroker.fetches

end Change

end ConsumerGroups.Simulated
