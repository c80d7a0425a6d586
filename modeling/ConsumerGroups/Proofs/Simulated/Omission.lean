import ConsumerGroups.Proofs.Simulated.Commits

/-! # Partitions that a broker leaves out

A broker that was told to leave a partition out never mentions it again when it lists offsets or
marks, and answers about all others in the order in which it was asked. The answer to a commit is
different: it has a result for every entry of the request, also for partitions that are left out.
-/

namespace ConsumerGroups.Simulated

open Message Results

/-! ## Outlines of messages -/

/-- The partitions that a message names, entry by entry. -/
def outline {β : Type} (partitionOf : β → Int32) (entries : List (TopicEntry β)) :
    List (TopicEntry Int32) :=
  entries.map fun entry => ⟨entry.name, entry.blocks.map partitionOf⟩

/-- An outline without the partitions of a set. -/
def outside (places : Std.ExtTreeSet TopicPartition) (entries : List (TopicEntry Int32)) :
    List (TopicEntry Int32) :=
  entries.map fun entry =>
    ⟨entry.name, entry.blocks.filter fun partition => ⟨entry.name, partition⟩ ∉ places⟩

/-- A partition occurs in an outline under an entry of its topic. -/
def Mentions (entries : List (TopicEntry Int32)) (place : TopicPartition) : Prop :=
  ∃ entry ∈ entries, entry.name = place.topic ∧ place.partition ∈ entry.blocks

/-- What a request for offsets or marks, or to commit marks, asks about. -/
def BrokerRequest.asked? : BrokerRequest → Option (List (TopicEntry Int32))
  | .listOffsets request => some (outline (·.partition) request.topics)
  | .fetch request => some (request.topics.getD [])
  | .commit request => some (outline (·.partition) request.topics)
  | _ => none

/-- What a successful response of a broker tells about. -/
def Answer.told? : Answer → Option (List (TopicEntry Int32))
  | .listed (.ok response) => some (outline (·.partition) response.topics)
  | .fetched (.ok response) => some (outline (·.partition) response.topics)
  | .committed (.ok response) => some (outline (·.partition) response.topics)
  | _ => none

section Outlines

variable {β γ : Type} {places : Std.ExtTreeSet TopicPartition}

theorem not_mentions_outside {place : TopicPartition} (hplace : place ∈ places)
    (entries : List (TopicEntry Int32)) : ¬Mentions (outside places entries) place := by
  rintro ⟨entry, hentry, htopic, hpartition⟩
  obtain ⟨whole, -, rfl⟩ := List.mem_map.mp hentry
  obtain ⟨-, hkept⟩ := List.mem_filter.mp hpartition
  have hsame : (⟨whole.name, place.partition⟩ : TopicPartition) = place := by
    rw [show whole.name = place.topic from htopic]
  rw [hsame] at hkept
  exact absurd hplace (of_decide_eq_true hkept)

theorem outside_outside (entries : List (TopicEntry Int32)) :
    outside places (outside places entries) = outside places entries := by
  simp [outside, List.filter_filter]

/-- A message whose blocks answer for all partitions that are not in the set. -/
theorem outline_filterMap {partitionOf : β → Int32} {answered : γ → Int32}
    {answer : String → β → Option γ}
    (hanswer : ∀ topic block, (answer topic block).map answered =
      if ⟨topic, partitionOf block⟩ ∈ places then none else some (partitionOf block))
    (entries : List (TopicEntry β)) :
    outline answered (entries.map fun entry =>
      ⟨entry.name, entry.blocks.filterMap (answer entry.name)⟩) =
        outside places (outline partitionOf entries) := by
  have hblocks (topic : String) (blocks : List β) :
      (blocks.filterMap (answer topic)).map answered =
        (blocks.map partitionOf).filter fun partition => ⟨topic, partition⟩ ∉ places := by
    rw [List.map_filterMap, List.filter_map, ← List.filterMap_eq_map, List.filterMap_filter]
    refine List.filterMap_congr fun block _ => ?_
    rw [hanswer]
    by_cases hplace : (⟨topic, partitionOf block⟩ : TopicPartition) ∈ places <;> simp [hplace]
  simp [outline, outside, hblocks]

end Outlines

/-! ## Responses -/

namespace BrokerState

variable (state : BrokerState)

/-- What the response to a request tells about, if the broker responds. -/
def tells : BrokerRequest → List (TopicEntry Int32)
  | .listOffsets request => outline (·.partition) (state.listResponse request).topics
  | .fetch request => outline (·.partition) (state.fetchResponse request).topics
  | .commit request => outline (·.partition) (state.commitResponse request).topics
  | _ => []

/-- The response to a request is empty, whatever was asked about. -/
def Empties : BrokerRequest → Prop
  | .fetch _ => state.fetchCode ≠ 0
  | .commit _ => state.mutesCommits = true
  | _ => False

variable {state} {request : BrokerRequest} {asked : List (TopicEntry Int32)}

/-- A broker answers a request exactly if it is up. -/
theorem told?_run (hasked : request.asked? = some asked) (id : Int32) :
    ((request.run id).run state).1.told? =
      if state.outage = none then some (state.tells request) else none := by
  cases request with
  | listOffsets request =>
      have hrun : (((BrokerRequest.listOffsets request).run id).run state).1 =
          .listed (state.unlessDown id (state.listResponse request)) := rfl
      rw [hrun, unlessDown]
      cases state.outage <;> rfl
  | fetch request =>
      have hrun : (((BrokerRequest.fetch request).run id).run state).1 =
          .fetched (state.unlessDown id (state.fetchResponse request)) := rfl
      rw [hrun, unlessDown]
      cases state.outage <;> rfl
  | commit request =>
      have hrun : (((BrokerRequest.commit request).run id).run state).1 =
          .committed ((commit id request).run state).1 := rfl
      rw [hrun, commit_run]
      cases state.outage <;> rfl
  | _ => cases hasked

theorem tells_of_empties (hempties : state.Empties request) : state.tells request = [] := by
  cases request with
  | fetch request => simp [tells, fetchResponse, outline, show state.fetchCode ≠ 0 from hempties]
  | commit request =>
      simp [tells, commitResponse, outline, show state.mutesCommits = true from hempties]
  | _ => cases hempties

/-- Of a list of offsets or marks, what is left out is missing, and nothing else. -/
theorem tells_eq_outside (hasked : request.asked? = some asked) (hspeaks : ¬state.Empties request)
    (hlists : ∀ commit, request ≠ .commit commit) :
    state.tells request = outside state.omitted asked := by
  cases request with
  | listOffsets request =>
      cases hasked
      apply outline_filterMap
      intro topic query
      unfold listBlock?
      dsimp only
      split
      · rfl
      · split <;> rfl
  | fetch request =>
      cases hasked
      have houtline : outline id (request.topics.getD []) = request.topics.getD [] := by
        simp [outline]
      have hanswer : ∀ topic partition,
          (state.fetchBlock? request.group topic partition).map (·.partition) =
            if ⟨topic, id partition⟩ ∈ state.omitted then none else some (id partition) := by
        intro topic partition
        unfold fetchBlock?
        dsimp only [id_eq]
        split
        · rfl
        · split <;> rfl
      have hall := outline_filterMap hanswer (request.topics.getD [])
      rw [houtline] at hall
      rwa [tells, fetchResponse, if_neg (show ¬state.fetchCode ≠ 0 from hspeaks)]
  | commit request => exact absurd rfl (hlists request)
  | _ => cases hasked

/-- The answer to a commit has a result for every entry. -/
theorem tells_commit {commit : OffsetCommit.Request} (hspeaks : ¬state.Empties (.commit commit)) :
    state.tells (.commit commit) = outline (·.partition) commit.topics := by
  rw [tells, commitResponse, if_neg (show ¬state.mutesCommits = true from hspeaks)]
  simp [outline, Function.comp_def, commitResult]

/-- Blocks of partitions that are not left out are those that were asked for, in their order. -/
theorem outside_tells (hasked : request.asked? = some asked) (hspeaks : ¬state.Empties request) :
    outside state.omitted (state.tells request) = outside state.omitted asked := by
  by_cases hcommit : ∃ commit, request = .commit commit
  · obtain ⟨commit, rfl⟩ := hcommit
    cases hasked
    rw [tells_commit hspeaks]
  · rw [tells_eq_outside hasked hspeaks (not_exists.mp hcommit), outside_outside]

/-- Partitions that are left out are missing from a response, unless a commit named them. -/
theorem tells_omitted_iff (hasked : request.asked? = some asked) :
    (∀ place, Mentions (state.tells request) place → place ∉ state.omitted) ↔
      ∀ commit, request = .commit commit → state.Empties request ∨
        ∀ place, Mentions asked place → place ∉ state.omitted := by
  by_cases hempties : state.Empties request
  · simp [tells_of_empties hempties, Mentions, hempties]
  · by_cases hcommit : ∃ commit, request = .commit commit
    · obtain ⟨commit, rfl⟩ := hcommit
      cases hasked
      simp [tells_commit hempties, hempties]
    · rw [tells_eq_outside hasked hempties (not_exists.mp hcommit)]
      refine iff_of_true (fun place hmentions homitted => ?_)
        fun commit hrequest => absurd ⟨commit, hrequest⟩ hcommit
      exact not_mentions_outside homitted asked hmentions

end BrokerState

/-! ## What a history leaves out -/

/-- A broker of the cluster leaves a partition out. -/
def ClusterState.Omits (cluster : ClusterState) (id : Int32) (place : TopicPartition) : Prop :=
  ∃ broker, cluster.brokers[id]? = some broker ∧ place ∈ broker.omitted

namespace ClusterState

variable {id : Int32} {place : TopicPartition}

theorem omits_enlist (cluster : ClusterState) (added : Int32) :
    (cluster.enlist added).Omits id place ↔ cluster.Omits id place := by
  unfold Omits
  rw [getElem?_enlist]
  by_cases hid : added = id
  · cases cluster.brokers[id]? <;> simp [hid]
  · simp [hid]

theorem omits_modifyBroker (cluster : ClusterState) {f : BrokerState → BrokerState}
    (hf : ∀ broker, (f broker).omitted = broker.omitted) (changed : Int32) :
    (cluster.modifyBroker changed f).Omits id place ↔ cluster.Omits id place := by
  unfold Omits
  rw [getElem?_modifyBroker]
  by_cases hid : changed = id
  · cases cluster.brokers[id]? <;> simp [hid, hf]
  · simp [hid]

theorem omits_leaveOut (cluster : ClusterState) (changed : Int32) (added : TopicPartition) :
    (cluster.modifyBroker changed (BrokerEdit.leaveOut added).apply).Omits id place ↔
      cluster.Omits id place ∨ ((changed = id ∧ added = place) ∧ id ∈ cluster.brokers) := by
  unfold Omits
  rw [getElem?_modifyBroker, Std.ExtTreeMap.mem_iff_isSome_getElem?]
  by_cases hid : changed = id
  · cases cluster.brokers[id]? with
    | none => simp
    | some broker => simp [hid, BrokerEdit.apply, or_comm]
  · simp [hid]

/-- Only being told to leave out a partition changes what a broker leaves out. -/
theorem omits_apply (cluster : ClusterState) (edit : ClusterEdit) :
    (edit.apply cluster).Omits id place ↔ cluster.Omits id place ∨
      (edit = .broker id (.leaveOut place) ∧ id ∈ cluster.brokers) := by
  cases edit with
  | enlist added => exact (omits_enlist cluster added).trans (by simp)
  | openTopic topic => exact (Iff.rfl : cluster.Omits id place ↔ _).trans (by simp)
  | appendPartition added leader log =>
      have hlogs : ((cluster.enlist leader).modifyBroker leader fun broker =>
          { broker with logs := broker.logs.insert added log }).Omits id place ↔
            (cluster.enlist leader).Omits id place :=
        omits_modifyBroker (f := fun broker => { broker with logs := broker.logs.insert added log })
          (cluster.enlist leader) (fun _ => rfl) leader
      exact (hlogs.trans (omits_enlist cluster leader)).trans (by simp)
  | assignCoordinator named added => exact (omits_enlist cluster added).trans (by simp)
  | broker changed change =>
      by_cases htold : ∃ added, change = .leaveOut added
      · obtain ⟨added, rfl⟩ := htold
        exact (omits_leaveOut cluster changed added).trans (by simp)
      · have hkept (broker : BrokerState) : (change.apply broker).omitted = broker.omitted := by
          cases change with
          | leaveOut added => exact absurd ⟨added, rfl⟩ htold
          | _ => rfl
        refine (omits_modifyBroker cluster hkept changed).trans (or_iff_left ?_).symm
        rintro ⟨hedit, -⟩
        cases hedit
        exact htold ⟨place, rfl⟩
  | close => exact (Iff.rfl : cluster.Omits id place ↔ _).trans (by simp)

theorem omits_of_quiet {first second : ClusterState} (hquiet : first.quiet = second.quiet)
    (homits : first.Omits id place) : second.Omits id place := by
  obtain ⟨broker, hbroker, homitted⟩ := homits
  obtain ⟨other, hother, halike⟩ := exists_broker_of_quiet hquiet hbroker
  have hsame : other.omitted = broker.omitted :=
    BrokerState.congr_quiet (f := BrokerState.omitted) (fun _ => rfl) halike
  exact ⟨other, hother, hsame ▸ homitted⟩

/-- Marks that are stored leave alone what a broker leaves out. -/
theorem omits_storeAll {cluster : ClusterState} {changed : Int32} {broker : BrokerState}
    (hbroker : cluster.brokers[changed]? = some broker) (request : OffsetCommit.Request) :
    { cluster with brokers := cluster.brokers.insert changed (broker.storeAll request) }.Omits
      id place ↔ cluster.Omits id place := by
  have hsame : (broker.storeAll request).omitted = broker.omitted := by
    rw [broker.storeAll_eq request]
  unfold Omits
  dsimp only
  rw [Std.ExtTreeMap.getElem?_insert]
  by_cases hid : changed = id
  · subst hid
    simp [hbroker, hsame]
  · simp [hid]

end ClusterState

namespace Session

/-- Of the steps, only telling a broker that is there to leave out a partition changes what
brokers leave out. -/
theorem Wired.omits_step {session : Session} (hwired : session.Wired) (step : Step) (id : Int32)
    (place : TopicPartition) :
    ((Session.step step).run session).2.world.cluster.Omits id place ↔
      session.world.cluster.Omits id place ∨
        (step.edit? = some (.broker id (.leaveOut place)) ∧
          id ∈ session.world.cluster.brokers) := by
  -- A step that makes no edit but closing leaves the brokers alone.
  have hothers (hclose : ∀ edit, step.edit? = some edit → edit = .close) :
      ((Session.step step).run session).2.world.cluster.Omits id place ↔
        session.world.cluster.Omits id place ∨
          (step.edit? = some (.broker id (.leaveOut place)) ∧
            id ∈ session.world.cluster.brokers) := by
    have hnot : ¬(step.edit? = some (.broker id (.leaveOut place)) ∧
        id ∈ session.world.cluster.brokers) := fun hedit => by cases hclose _ hedit.1
    rw [or_iff_left hnot]
    generalize hreached : ((Session.step step).run session).2.world.cluster = reached
    have hchange := hreached ▸ (hwired.step step).2
    cases hchange with
    | none hquiet =>
        exact ⟨ClusterState.omits_of_quiet hquiet, ClusterState.omits_of_quiet hquiet.symm⟩
    | edit edit hedit =>
        obtain rfl := hclose edit hedit
        exact Iff.rfl
    | store hrequest hbroker => exact ClusterState.omits_storeAll hbroker _
  cases step with
  | editCluster edit =>
      rw [editCluster_session]
      simpa [Step.edit?] using session.world.cluster.omits_apply edit
  | editBroker changed edit =>
      rw [editBroker_session]
      split
      next hthere =>
        simpa [Step.edit?] using session.world.cluster.omits_apply (.broker changed edit)
      next habsent =>
        refine (or_iff_left ?_).symm
        rintro ⟨hedit, hthere⟩
        cases hedit
        exact habsent hthere
  | call call =>
      apply hothers
      intro edit hedit
      cases call with
      | console call => cases call <;> cases hedit; rfl
      | direct call => cases hedit
  | link step =>
      apply hothers
      intro edit hedit
      cases step <;> cases hedit; rfl
  | _ => exact hothers fun _ hedit => by cases hedit

/-- In the course of a history a broker that was there was told to leave out a partition. -/
def LeftOut (settings : Settings) (steps : List Step) (id : Int32) (place : TopicPartition) :
    Prop :=
  ∃ before step later, steps = before ++ step :: later ∧
    step.edit? = some (.broker id (.leaveOut place)) ∧
    id ∈ (after settings before).world.cluster.brokers

theorem leftOut_append_singleton (settings : Settings) (steps : List Step) (step : Step)
    (id : Int32) (place : TopicPartition) :
    LeftOut settings (steps ++ [step]) id place ↔ LeftOut settings steps id place ∨
      (step.edit? = some (.broker id (.leaveOut place)) ∧
        id ∈ (after settings steps).world.cluster.brokers) := by
  constructor
  · rintro ⟨before, told, later, hsteps, htold⟩
    rcases List.eq_nil_or_concat' later with rfl | ⟨later, last, rfl⟩
    · obtain ⟨rfl, hlast⟩ := List.append_inj' hsteps rfl
      cases hlast
      exact .inr htold
    · rw [← List.cons_append, ← List.append_assoc] at hsteps
      obtain ⟨rfl, -⟩ := List.append_inj' hsteps rfl
      exact .inl ⟨before, told, later, rfl, htold⟩
  · rintro (⟨before, told, later, rfl, htold⟩ | htold)
    · exact ⟨before, told, later ++ [step], by simp, htold⟩
    · exact ⟨steps, step, [], rfl, htold⟩

/-- Brokers leave out what they were told to, and nothing else. -/
theorem omits_after (settings : Settings) (steps : List Step) (id : Int32)
    (place : TopicPartition) :
    (after settings steps).world.cluster.Omits id place ↔ LeftOut settings steps id place := by
  induction steps using List.reverseRecOn with
  | nil =>
      refine iff_of_false ?_ ?_
      · rintro ⟨broker, hbroker, -⟩
        cases hbroker
      · rintro ⟨before, told, later, hsteps, -⟩
        simp at hsteps
  | append_singleton steps step ih =>
      rw [after_append, run_cons, leftOut_append_singleton, ← ih]
      exact (after_wired settings steps).omits_step step id place

/-! ## Answers -/

section Answers

variable {settings : Settings} {steps : List Step} {id : Int32} {broker : BrokerState}
  {request : BrokerRequest} {asked : List (TopicEntry Int32)}

theorem askBroker_answer {session : Session}
    (hbroker : session.world.cluster.brokers[id]? = some broker) (request : BrokerRequest) :
    ((Session.step (.askBroker id request)).run session).1 = ((request.run id).run broker).1 := by
  have hanswer : ((Session.step (.askBroker id request)).run session).1 =
      ((World.onBroker? id (request.run id)).run session.world.cluster).1.getD .noBroker := rfl
  rw [hanswer, World.onBroker?_run, hbroker]
  rfl

/-- A broker answers a request exactly if it is up. Unless the response is emptied, its blocks for
partitions that are not left out are those that were asked for, entry by entry and in order. A
partition that the broker was told to leave out is missing from every list of offsets or marks; the
answer to a commit misses it only if it is emptied or nobody asked for it, since that answer tells
about everything that was asked. -/
theorem omission_of_answer
    (hbroker : (after settings steps).world.cluster.brokers[id]? = some broker)
    (hasked : request.asked? = some asked) :
    let answer := ((Session.step (.askBroker id request)).run (after settings steps)).1
    (∀ place, place ∈ broker.omitted ↔ LeftOut settings steps id place) ∧
      (answer.told? = none ↔ broker.outage ≠ none) ∧
      ∀ told, answer.told? = some told →
        (broker.Empties request → told = []) ∧
        (¬broker.Empties request →
          outside broker.omitted told = outside broker.omitted asked ∧
            ∀ commit, request = .commit commit → told = asked) ∧
        ((∀ place, Mentions told place → ¬LeftOut settings steps id place) ↔
          ∀ commit, request = .commit commit → broker.Empties request ∨
            ∀ place, Mentions asked place → ¬LeftOut settings steps id place) := by
  intro answer
  have hplace (place : TopicPartition) :
      place ∈ broker.omitted ↔ LeftOut settings steps id place := by
    rw [← omits_after]
    simp [ClusterState.Omits, hbroker]
  have hanswer : answer.told? =
      if broker.outage = none then some (broker.tells request) else none := by
    rw [← BrokerState.told?_run hasked id, ← askBroker_answer hbroker request]
  refine ⟨hplace, by simp [hanswer], fun told htold => ?_⟩
  obtain rfl : broker.tells request = told := by
    rw [hanswer] at htold
    split at htold
    · exact Option.some.inj htold
    · cases htold
  refine ⟨BrokerState.tells_of_empties,
    fun hspeaks => ⟨BrokerState.outside_tells hasked hspeaks, ?_⟩, ?_⟩
  · rintro commit rfl
    cases hasked
    exact BrokerState.tells_commit hspeaks
  · simp only [← hplace]
    exact BrokerState.tells_omitted_iff hasked

/-- Offsets are listed for a topic of which one partition is left out. -/
theorem omission_of_listed_partition :
    let steps : List Step := [.editCluster (.enlist 1), .editBroker 1 (.leaveOut ⟨"t", 1⟩)]
    let request : BrokerRequest :=
      .listOffsets (ListOffsets.request "t" [0, 1, 2, 1, 0] (-1))
    ((Session.step (.askBroker 1 request)).run (after {} steps)).1.told? =
        some [⟨"t", [0, 2, 0]⟩] ∧
      LeftOut {} steps 1 ⟨"t", 1⟩ ∧
      outside {⟨"t", 1⟩} [⟨"t", [0, 2, 0]⟩] = outside {⟨"t", 1⟩} [⟨"t", [0, 1, 2, 1, 0]⟩] ∧
      ∀ place, Mentions [⟨"t", [0, 2, 0]⟩] place → ¬LeftOut {} steps 1 place := by
  intro steps request
  have hbroker : (after {} steps).world.cluster.brokers[(1 : Int32)]? =
      some { omitted := {⟨"t", 1⟩} } := rfl
  have htold : ((Session.step (.askBroker 1 request)).run (after {} steps)).1.told? =
      some [⟨"t", [0, 2, 0]⟩] := by cbv
  have hasked : request.asked? = some [⟨"t", [0, 1, 2, 1, 0]⟩] := rfl
  obtain ⟨hplace, -, hall⟩ := omission_of_answer hbroker hasked
  obtain ⟨-, hexact, hleft⟩ := hall _ htold
  exact ⟨htold, (hplace _).mp (by decide), (hexact id).1,
    hleft.mpr fun _ hcommit => BrokerRequest.noConfusion hcommit⟩

/-- A partition that the broker was told to leave out has its result in the answer to a commit. -/
theorem commit_tells_omitted_partition :
    let steps : List Step := [.editCluster (.enlist 1), .editBroker 1 (.leaveOut ⟨"t", 0⟩)]
    let request : BrokerRequest :=
      .commit
        { group := "g", topics := [⟨"t", [{ partition := 0, offset := 5, metadata := some "a" }]⟩] }
    LeftOut {} steps 1 ⟨"t", 0⟩ ∧
      ∃ told, ((Session.step (.askBroker 1 request)).run (after {} steps)).1.told? = some told ∧
        Mentions told ⟨"t", 0⟩ := by
  intro steps request
  have htold : ((Session.step (.askBroker 1 request)).run (after {} steps)).1.told? =
      some [⟨"t", [0]⟩] := by cbv
  refine ⟨⟨[.editCluster (.enlist 1)], _, [], rfl, rfl, ?_⟩, _, htold, ⟨"t", [0]⟩, by simp⟩
  decide

end Answers

end Session

end ConsumerGroups.Simulated
