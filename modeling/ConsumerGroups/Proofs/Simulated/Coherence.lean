import ConsumerGroups.Proofs.Simulated.Commits

/-! # Clusters whose tables agree

The tables of a cluster name one another's entries: leaders and coordinators are brokers, and the
partitions of a topic have leaders. Whatever is done to a cluster, its tables agree. So a survey
of a topic fails only if the topic was never registered, or if a leader does not serve one of its
partitions.
-/

namespace ConsumerGroups.Simulated

open Message Range Results

/-! ## Agreement -/

/-- A cluster that has every broker and every leader that it names. -/
structure ClusterState.Coherent (cluster : ClusterState) : Prop where
  leaders : ∀ (place : TopicPartition) (id : Int32), cluster.leaders[place]? = some id →
    id ∈ cluster.brokers
  coordinators : cluster.Staffed
  listed : ∀ (topic : String) (partitions : List Int32), cluster.topics[topic]? = some partitions →
    ∀ partition ∈ partitions, TopicPartition.mk topic partition ∈ cluster.leaders

/-- The partitions that an edit adds to a topic, if it registers the topic. -/
def ClusterEdit.registers? (topic : String) : ClusterEdit → Option (List Int32)
  | .openTopic other => if other = topic then some [] else none
  | .appendPartition place _ _ => if place.topic = topic then some [place.partition] else none
  | _ => none

namespace ClusterState

variable {cluster : ClusterState}

/-- An edit that registers a topic adds its partitions after those that are there. -/
theorem getElem?_topics_apply (cluster : ClusterState) (edit : ClusterEdit) (topic : String) :
    (edit.apply cluster).topics[topic]? =
      match edit.registers? topic with
      | none => cluster.topics[topic]?
      | some added => some (cluster.topics[topic]?.getD [] ++ added) := by
  cases edit with
  | openTopic other =>
      change (cluster.topics.insertIfNew other [])[topic]? = _
      rw [Std.ExtTreeMap.getElem?_insertIfNew]
      simp only [Std.LawfulEqOrd.compare_eq_iff_eq, ClusterEdit.registers?]
      by_cases hsame : other = topic
      · subst hsame
        by_cases hmem : other ∈ cluster.topics <;> simp [hmem]
      · simp [hsame]
  | appendPartition place leader log =>
      change (cluster.topics.alter place.topic fun listed =>
        some (listed.getD [] ++ [place.partition]))[topic]? = _
      rw [Std.ExtTreeMap.getElem?_alter]
      simp only [Std.LawfulEqOrd.compare_eq_iff_eq, ClusterEdit.registers?]
      by_cases hsame : place.topic = topic <;> simp [hsame]
  | _ => rfl

/-- Edits take no leader away. -/
theorem mem_leaders_apply {place : TopicPartition} (hplace : place ∈ cluster.leaders)
    (edit : ClusterEdit) : place ∈ (edit.apply cluster).leaders := by
  cases edit with
  | appendPartition added leader log => exact Std.ExtTreeMap.mem_insert.mpr (.inr hplace)
  | _ => exact hplace

/-- Every partition that an edit registers has a leader afterwards. -/
theorem mem_leaders_of_registers? {edit : ClusterEdit} {topic : String} {added : List Int32}
    (hadded : edit.registers? topic = some added) {partition : Int32} (hpartition : partition ∈ added) :
    TopicPartition.mk topic partition ∈ (edit.apply cluster).leaders := by
  cases edit with
  | openTopic other =>
      simp only [ClusterEdit.registers?, Option.ite_none_right_eq_some, Option.some.injEq] at hadded
      obtain ⟨-, rfl⟩ := hadded
      cases hpartition
  | appendPartition place leader log =>
      simp only [ClusterEdit.registers?, Option.ite_none_right_eq_some, Option.some.injEq] at hadded
      obtain ⟨rfl, rfl⟩ := hadded
      obtain rfl := List.mem_singleton.mp hpartition
      exact Std.ExtTreeMap.mem_insert_self
  | _ => cases hadded

theorem Coherent.apply (hcoherent : cluster.Coherent) (edit : ClusterEdit) :
    (edit.apply cluster).Coherent where
  leaders place id hid := by
    cases edit with
    | enlist added => exact (mem_enlist cluster added id).mpr (.inr (hcoherent.leaders place id hid))
    | openTopic topic => exact hcoherent.leaders place id hid
    | appendPartition added leader log =>
        change (cluster.leaders.insert added leader)[place]? = some id at hid
        refine (mem_modifyBroker (cluster.enlist leader) leader _ id).mpr ?_
        rw [mem_enlist]
        rw [Std.ExtTreeMap.getElem?_insert] at hid
        split at hid
        · exact .inl (Option.some.inj hid)
        · exact .inr (hcoherent.leaders place id hid)
    | assignCoordinator group added =>
        exact (mem_enlist cluster added id).mpr (.inr (hcoherent.leaders place id hid))
    | broker changed edit =>
        exact (mem_modifyBroker cluster changed edit.apply id).mpr (hcoherent.leaders place id hid)
    | close => exact hcoherent.leaders place id hid
  coordinators := hcoherent.coordinators.apply edit
  listed topic partitions hlisted partition hpartition := by
    rw [getElem?_topics_apply] at hlisted
    cases hadded : edit.registers? topic with
    | none =>
        rw [hadded] at hlisted
        exact mem_leaders_apply (hcoherent.listed topic partitions hlisted partition hpartition) edit
    | some added =>
        rw [hadded] at hlisted
        obtain rfl := Option.some.inj hlisted
        rcases List.mem_append.mp hpartition with hbefore | hnew
        · cases htopic : cluster.topics[topic]? with
          | none => simp [htopic] at hbefore
          | some before =>
              rw [htopic] at hbefore
              exact mem_leaders_apply (hcoherent.listed topic before htopic partition hbefore) edit
        · exact mem_leaders_of_registers? hadded hnew

/-- Listed partitions have leaders, and these are there. -/
theorem Coherent.leader_of_listed (hcoherent : cluster.Coherent) {topic : String}
    {partitions : List Int32} (hlisted : cluster.topics[topic]? = some partitions)
    {partition : Int32} (hpartition : partition ∈ partitions) :
    ∃ id, cluster.leader ⟨topic, partition⟩ = .ok id := by
  have hleads := hcoherent.listed topic partitions hlisted partition hpartition
  obtain ⟨id, hid⟩ := Option.isSome_iff_exists.mp
    (Std.ExtTreeMap.mem_iff_isSome_getElem?.mp hleads)
  exact ⟨id, leader_eq_ok.mpr ⟨hid, hcoherent.leaders _ id hid⟩⟩

/-- No leader that is named is missing among the brokers. -/
theorem Coherent.leader_eq_error (hcoherent : cluster.Coherent) {place : TopicPartition}
    {cause : Cause} (hcause : cluster.leader place = .error cause) :
    place ∉ cluster.leaders ∧ cause = (Trouble.noLeader place.topic place.partition).cause := by
  rw [Std.ExtTreeMap.mem_iff_isSome_getElem?]
  cases hid : cluster.leaders[place]? with
  | none =>
      simp only [leader, hid, Except.error.injEq] at hcause
      exact ⟨by simp, hcause.symm⟩
  | some id =>
      have hfound := leader_eq_ok.mpr ⟨hid, hcoherent.leaders place id hid⟩
      rw [hfound] at hcause
      cases hcause

end ClusterState

/-- Whatever happens to a cluster, its tables agree. -/
theorem Change.coherent {edits : ClusterEdit → Prop} {sends : OffsetCommit.Request → Prop}
    {before after : ClusterState} (hchange : Change edits sends before after)
    (hcoherent : before.Coherent) : after.Coherent := by
  have hstaffed := hchange.staffed hcoherent.coordinators
  cases hchange with
  | none hquiet =>
      have hleaders : after.quiet.leaders = before.quiet.leaders := by rw [hquiet]
      have htopics : after.quiet.topics = before.quiet.topics := by rw [hquiet]
      change after.leaders = before.leaders at hleaders
      change after.topics = before.topics at htopics
      refine ⟨fun place id hid => ?_, hstaffed, ?_⟩
      · rw [← after.mem_quiet, hquiet, before.mem_quiet]
        exact hcoherent.leaders place id (hleaders ▸ hid)
      · rw [htopics, hleaders]
        exact hcoherent.listed
  | edit edit hedit => exact hcoherent.apply edit
  | @store changed broker request hrequest hbroker =>
      refine ⟨fun place id hid => ?_, hstaffed, hcoherent.listed⟩
      exact Std.ExtTreeMap.mem_insert.mpr (.inr (hcoherent.leaders place id hid))

theorem Session.after_coherent (settings : Settings) (steps : List Step) :
    (after settings steps).world.cluster.Coherent :=
  after_of_changes ⟨by simp, by simp [ClusterState.Staffed], by simp⟩
    (fun _ _ _ _ hchange hcoherent => hchange.coherent hcoherent) settings

/-! ## What is registered -/

/-- The partitions that a step adds to a topic, if it registers the topic. -/
def Step.registers? (topic : String) : Step → Option (List Int32)
  | .editCluster edit => edit.registers? topic
  | _ => none

/-- The partitions that steps add to a topic, in their order, if any step registers it. -/
def registered? (topic : String) (steps : List Step) : Option (List Int32) :=
  let added := steps.filterMap (·.registers? topic)
  if added = [] then none else some added.flatten

/-- A change by edits that do not register a topic leaves its partitions as they are. -/
theorem Change.topics {edits : ClusterEdit → Prop} {sends : OffsetCommit.Request → Prop}
    {before after : ClusterState} (hchange : Change edits sends before after) {topic : String}
    (hedits : ∀ edit, edits edit → edit.registers? topic = .none) :
    after.topics[topic]? = before.topics[topic]? := by
  cases hchange with
  | none hquiet =>
      have htopics : after.quiet.topics = before.quiet.topics := by rw [hquiet]
      change after.topics = before.topics at htopics
      rw [htopics]
  | edit edit hedit => rw [ClusterState.getElem?_topics_apply, hedits edit hedit]
  | store hrequest hbroker => rfl

/-- Only edits of the cluster register topics. -/
theorem Step.registers?_of_edit? {step : Step} {topic : String}
    (hnone : step.registers? topic = none) {edit : ClusterEdit} (hedit : step.edit? = some edit) :
    edit.registers? topic = none := by
  unfold Step.edit? at hedit
  split at hedit <;> cases hedit
  · exact hnone
  · rfl
  · rfl
  · rfl

theorem Session.Wired.topics_step {session : Session} (hwired : session.Wired) (step : Step)
    (topic : String) :
    ((Session.step step).run session).2.world.cluster.topics[topic]? =
      match step.registers? topic with
      | none => session.world.cluster.topics[topic]?
      | some added => some (session.world.cluster.topics[topic]?.getD [] ++ added) := by
  cases hadded : step.registers? topic with
  | none => exact (hwired.step step).2.topics fun edit => Step.registers?_of_edit? hadded
  | some added =>
      cases step with
      | editCluster edit =>
          change edit.registers? topic = some added at hadded
          rw [editCluster_session, ClusterState.getElem?_topics_apply, hadded]
      | _ => cases hadded

/-- The partitions of a topic are those that were added to it, in the order of the additions. -/
theorem Session.topics_after (settings : Settings) (steps : List Step) (topic : String) :
    (after settings steps).world.cluster.topics[topic]? = registered? topic steps := by
  induction steps using List.reverseRecOn with
  | nil => exact Std.ExtTreeMap.getElem?_empty
  | append_singleton steps step ih =>
      rw [after_append, run_cons]
      change ((Session.step step).run (after settings steps)).2.world.cluster.topics[topic]? = _
      rw [(after_wired settings steps).topics_step, ih]
      unfold registered?
      simp only [List.filterMap_append]
      cases hadded : step.registers? topic with
      | none => simp [hadded]
      | some added =>
          by_cases hempty : steps.filterMap (·.registers? topic) = [] <;> simp [hadded, hempty]

/-! ## Clusters without faults -/

/-- An edit of the cluster, or of no more than the delay of a broker. -/
def ClusterEdit.Builds : ClusterEdit → Prop
  | .broker _ (.delayBy _) => True
  | .broker _ _ => False
  | _ => True

/-- A step that changes a cluster in no other way than by building it. -/
def Step.Builds (step : Step) : Prop :=
  ∀ edit, step.edit? = some edit → edit.Builds

/-- A broker that is up and leaves nothing out. -/
structure BrokerState.Sound (broker : BrokerState) : Prop where
  up : broker.outage = none
  listed : ∀ place, place ∉ broker.omitted

theorem BrokerState.Sound.of_quiet {first second : BrokerState} (hsound : first.Sound)
    (hquiet : first.quiet = second.quiet) : second.Sound where
  up := (congr_quiet (f := BrokerState.outage) (fun _ => rfl) hquiet).symm.trans hsound.up
  listed := congr_quiet (f := BrokerState.omitted) (fun _ => rfl) hquiet ▸ hsound.listed

/-- A broker of a cluster that keeps a log of a partition. -/
def ClusterState.HasLog (cluster : ClusterState) (id : Int32) (place : TopicPartition) : Prop :=
  ∃ broker, cluster.brokers[id]? = some broker ∧ place ∈ broker.logs

/-- A cluster all of whose brokers are sound, and whose leaders keep the logs that they lead. -/
structure ClusterState.Sound (cluster : ClusterState) : Prop where
  brokers : cluster.Every BrokerState.Sound
  logs : ∀ (place : TopicPartition) (id : Int32), cluster.leaders[place]? = some id →
    cluster.HasLog id place

namespace ClusterState

variable {cluster : ClusterState}

theorem HasLog.enlist {id : Int32} {place : TopicPartition} (hlog : cluster.HasLog id place)
    (added : Int32) : (cluster.enlist added).HasLog id place := by
  obtain ⟨broker, hbroker, hplace⟩ := hlog
  refine ⟨broker, ?_, hplace⟩
  rw [getElem?_enlist, hbroker]
  split <;> rfl

theorem HasLog.modifyBroker {id : Int32} {place : TopicPartition} (hlog : cluster.HasLog id place)
    {f : BrokerState → BrokerState}
    (hf : ∀ broker : BrokerState, place ∈ broker.logs → place ∈ (f broker).logs) (changed : Int32) :
    (cluster.modifyBroker changed f).HasLog id place := by
  obtain ⟨broker, hbroker, hplace⟩ := hlog
  by_cases hid : changed = id
  · exact ⟨f broker, by rw [getElem?_modifyBroker, hbroker, if_pos hid]; rfl, hf broker hplace⟩
  · exact ⟨broker, by rw [getElem?_modifyBroker, hbroker, if_neg hid], hplace⟩

/-- A partition that is appended has its log on its leader, and no other log is lost. -/
theorem hasLog_appendPartition (added place : TopicPartition) (leader id : Int32) (log : PartitionLog)
    (hlog : (added = place ∧ leader = id) ∨ cluster.HasLog id place) :
    (cluster.appendPartition added leader log).HasLog id place := by
  have hinsert (broker : BrokerState) (hplace : place ∈ broker.logs) :
      place ∈ { broker with logs := broker.logs.insert added log }.logs :=
    Std.ExtTreeMap.mem_insert.mpr (.inr hplace)
  rcases hlog with ⟨rfl, rfl⟩ | hlog
  · obtain ⟨broker, hbroker⟩ : ∃ broker, (cluster.enlist leader).brokers[leader]? = some broker :=
      ⟨_, by rw [getElem?_enlist, if_pos rfl]⟩
    refine ⟨{ broker with logs := broker.logs.insert added log }, ?_,
      Std.ExtTreeMap.mem_insert_self⟩
    change ((cluster.enlist leader).modifyBroker leader _).brokers[leader]? = _
    rw [getElem?_modifyBroker, if_pos rfl, hbroker]
    rfl
  · have hkept := (hlog.enlist leader).modifyBroker hinsert leader
    exact hkept

theorem Sound.apply (hsound : cluster.Sound) {edit : ClusterEdit} (hbuilds : edit.Builds) :
    (edit.apply cluster).Sound where
  brokers := by
    refine hsound.brokers.apply ⟨rfl, by simp⟩ (fun broker _ _ hbroker => ⟨hbroker.up, hbroker.listed⟩) ?_
    rintro id change rfl broker hbroker
    cases change with
    | delayBy ms => exact ⟨hbroker.up, hbroker.listed⟩
    | _ => exact hbuilds.elim
  logs place id hid := by
    cases edit with
    | enlist added => exact (hsound.logs place id hid).enlist added
    | openTopic topic => exact hsound.logs place id hid
    | appendPartition added leader log =>
        apply hasLog_appendPartition
        change (cluster.leaders.insert added leader)[place]? = some id at hid
        rw [Std.ExtTreeMap.getElem?_insert] at hid
        split at hid
        · rename_i hsame
          exact .inl ⟨Std.LawfulEqOrd.eq_of_compare hsame, Option.some.inj hid⟩
        · exact .inr (hsound.logs place id hid)
    | assignCoordinator group added => exact (hsound.logs place id hid).enlist added
    | broker changed change =>
        cases change with
        | delayBy ms =>
            exact (hsound.logs place id hid).modifyBroker (f := (BrokerEdit.delayBy ms).apply)
              (fun _ hplace => hplace) changed
        | _ => exact hbuilds.elim
    | close => exact hsound.logs place id hid

/-- A cluster without faults serves every partition that it lists. -/
theorem Sound.serves (hsound : cluster.Sound) {place : TopicPartition}
    (hleads : place ∈ cluster.leaders) : ∃ log, cluster.Serves place log := by
  obtain ⟨id, hid⟩ := Option.isSome_iff_exists.mp
    (Std.ExtTreeMap.mem_iff_isSome_getElem?.mp hleads)
  obtain ⟨broker, hbroker, hplace⟩ := hsound.logs place id hid
  obtain ⟨log, hlog⟩ := Option.isSome_iff_exists.mp
    (Std.ExtTreeMap.mem_iff_isSome_getElem?.mp hplace)
  have hwell := hsound.brokers id broker hbroker
  exact ⟨log, id, broker, hid, hbroker, hwell.up, hwell.listed place, hlog⟩

end ClusterState

/-- What builds a cluster, and what does not edit it at all, leaves it without faults. -/
theorem Change.sound {edits : ClusterEdit → Prop} {sends : OffsetCommit.Request → Prop}
    {before after : ClusterState} (hchange : Change edits sends before after)
    (hedits : ∀ edit, edits edit → edit.Builds) (hsound : before.Sound) : after.Sound := by
  have hstore (broker : BrokerState) (request : OffsetCommit.Request) (hbroker : broker.Sound) :
      (broker.storeAll request).Sound := by
    rw [BrokerState.storeAll_eq]
    exact ⟨hbroker.up, hbroker.listed⟩
  refine ⟨hchange.every (fun _ _ hquiet hbroker => hbroker.of_quiet hquiet) hstore
    (fun edit hedit _ => (hsound.apply (hedits edit hedit)).brokers) hsound.brokers, ?_⟩
  intro place id hid
  cases hchange with
  | none hquiet =>
      have hleaders : after.quiet.leaders = before.quiet.leaders := by rw [hquiet]
      change after.leaders = before.leaders at hleaders
      obtain ⟨broker, hbroker, hplace⟩ := hsound.logs place id (hleaders ▸ hid)
      obtain ⟨other, hother, hsame⟩ := ClusterState.exists_broker_of_quiet hquiet.symm hbroker
      have hlogs := BrokerState.congr_quiet (f := BrokerState.logs) (fun _ => rfl) hsame
      exact ⟨other, hother, hlogs ▸ hplace⟩
  | edit edit hedit => exact (hsound.apply (hedits edit hedit)).logs place id hid
  | @store changed stored request hrequest hstored =>
      obtain ⟨broker, hbroker, hplace⟩ := hsound.logs place id hid
      by_cases hsame : changed = id
      · subst hsame
        obtain rfl := Option.some.inj (hstored.symm.trans hbroker)
        refine ⟨stored.storeAll request, by simp, ?_⟩
        rw [BrokerState.storeAll_eq]
        exact hplace
      · refine ⟨broker, ?_, hplace⟩
        rw [Std.ExtTreeMap.getElem?_insert]
        simp [hsame, hbroker]

/-! ## Surveys of reachable clusters -/

/-- What every cluster that a session reaches is like, and what surveys of it come to. Its tables
agree, so that no lookup meets a broker that is not there, and a group has a coordinator exactly
if there are brokers. A survey of a topic that was never registered fails. Otherwise all listed
partitions have leaders, and the survey succeeds exactly if these serve them, with the records of
the partitions in the order in which they were added. Where nothing was done but building the
cluster, it succeeds. -/
theorem Session.survey_outcome (settings : Settings) (steps : List Step) (topic : String) :
    let world := (after settings steps).world
    let outcome := ((survey World.clusterView topic).runFrom world).1
    world.cluster.Coherent ∧
    (∀ place cause, world.cluster.leader place = .error cause →
      cause = (Trouble.noLeader place.topic place.partition).cause) ∧
    (∀ group, (world.cluster.brokers = ∅ ∧
        world.cluster.coordinator group = .error Trouble.noBrokers.cause) ∨
      (world.cluster.brokers ≠ ∅ ∧ ∃ id, world.cluster.coordinator group = .ok id)) ∧
    (registered? topic steps = none →
      outcome = .error (.connection .topicPartitions (Trouble.unknownTopic topic).cause)) ∧
    (∀ partitions, registered? topic steps = some partitions →
      (∀ partition ∈ partitions, ∃ id, world.cluster.leader ⟨topic, partition⟩ = .ok id) ∧
      ((∃ records, outcome = .ok records) ↔
        ∀ partition ∈ partitions, ∃ log, world.cluster.Serves ⟨topic, partition⟩ log) ∧
      (∀ records, outcome = .ok records ↔
        List.Forall₂ (world.cluster.RangeOf topic) partitions records) ∧
      ((∀ step ∈ steps, step.Builds) → ∃ records, outcome = .ok records)) := by
  intro world outcome
  have hcoherent : world.cluster.Coherent := after_coherent settings steps
  have htopics : world.cluster.topics[topic]? = registered? topic steps :=
    topics_after settings steps topic
  refine ⟨hcoherent, fun place cause hcause => (hcoherent.leader_eq_error hcause).2, ?_, ?_, ?_⟩
  · intro group
    rcases hcoherent.coordinators.coordinator group with hnone | ⟨hsome, id, broker, -, hid, -⟩
    · exact .inl hnone
    · exact .inr ⟨hsome, id, hid⟩
  · exact fun hnever => World.survey_of_unregistered (htopics.trans hnever)
  · intro partitions hregistered
    rw [hregistered] at htopics
    have houtcome (records : List Progress) : outcome = .ok records ↔
        List.Forall₂ (world.cluster.RangeOf topic) partitions records := by
      refine World.survey_eq_ok.trans ⟨?_, fun hranges => ⟨partitions, htopics, hranges⟩⟩
      rintro ⟨listed, hlisted, hranges⟩
      obtain rfl := Option.some.inj (htopics.symm.trans hlisted)
      exact hranges
    have hserved : (∃ records, outcome = .ok records) ↔
        ∀ partition ∈ partitions, ∃ log, world.cluster.Serves ⟨topic, partition⟩ log :=
      (exists_congr houtcome).trans ClusterState.exists_ranges_iff
    refine ⟨fun partition => hcoherent.leader_of_listed htopics, hserved, houtcome, fun hbuilds => ?_⟩
    have hsound : world.cluster.Sound :=
      after_of_changes ⟨by simp [ClusterState.Every], by simp⟩
        (fun step hstep _ _ hchange hsound => hchange.sound (hbuilds step hstep) hsound) settings
    exact hserved.mpr fun partition hpartition =>
      hsound.serves (hcoherent.listed topic partitions htopics partition hpartition)

/-- A partition that is added again under another leader is listed twice, each time with the log of
the leader that it has now. -/
theorem Session.survey_of_moved_partition :
    let steps : List Step :=
      [.editCluster (.appendPartition ⟨"t", 0⟩ 1 ⟨5, 9⟩),
        .editCluster (.appendPartition ⟨"t", 0⟩ 2 ⟨6, 8⟩)]
    let world := (after {} steps).world
    let record : Progress := { partition := 0, oldest := 6, newest := 8 }
    ((survey World.clusterView "t").runFrom world).1 = .ok [record, record] ∧
      List.Forall₂ (world.cluster.RangeOf "t") [0, 0] [record, record] := by
  intro steps world record
  have hread : ((survey World.clusterView "t").runFrom world).1 = .ok [record, record] := by cbv
  obtain ⟨-, -, -, -, hregistered⟩ := survey_outcome {} steps "t"
  obtain ⟨-, -, hranges, -⟩ := hregistered [0, 0] rfl
  exact ⟨hread, (hranges [record, record]).mp hread⟩

end ConsumerGroups.Simulated
