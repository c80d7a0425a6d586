import ConsumerGroups.Canned
import ConsumerGroups.Proofs.Polling
import ConsumerGroups.Proofs.Range.Survey

/-! # The positions that shares hold

The shares of the leaders part the positions of a topic's list: each position is in one share, and
in no other place. So a survey has no more tasks than positions, the failures of all of them fit
into a channel with one slot for each task, and each position gets one record if no task fails.
-/

namespace ConsumerGroups.Range

open Canned Message Results

variable {σ : Type}

/-! ## Shares -/

/-- Shares part the positions of a list of partitions, whose leaders have the given identifiers. -/
structure Parts (partitions ids : List Int32) (shares : List (Share σ)) : Prop where
  distinct : (shares.map (·.broker.id)).Nodup
  /-- Shares come in the order in which their identifiers are first seen. -/
  ordered : (shares.map (·.broker.id)).Pairwise fun first second =>
    ids.idxOf first < ids.idxOf second
  /-- Every position is in one share, once. -/
  covered : ((shares.flatMap (·.places)).map (·.1)).Perm (List.range partitions.length)
  /-- A position is beside its partition, in the share of its own leader. -/
  own : ∀ share ∈ shares, ∀ place ∈ share.places,
    partitions[place.1]? = some place.2 ∧ ids[place.1]? = some share.broker.id
  ascending : ∀ share ∈ shares, (share.places.map (·.1)).Pairwise (· < ·)
  inhabited : ∀ share ∈ shares, share.places ≠ []

section Parting

variable {partitions : List Int32} {leaders : List (Broker σ)}

theorem mem_divide_numbered (hlength : leaders.length = partitions.length) {share : Share σ}
    (hshare : share ∈ Share.divide (numbered 0 partitions leaders)) :
    ∃ broker ∈ firstsBy Broker.id leaders,
      share = Share.of (numbered 0 partitions leaders) broker := by
  rw [Share.divide_eq, map_leader_numbered hlength] at hshare
  obtain ⟨broker, hbroker, rfl⟩ := List.mem_map.mp hshare
  exact ⟨broker, hbroker, rfl⟩

theorem map_id_divide_numbered (hlength : leaders.length = partitions.length) :
    (Share.divide (numbered 0 partitions leaders)).map (·.broker.id) =
      (firstsBy Broker.id leaders).map Broker.id := by
  rw [Share.divide_eq, map_leader_numbered hlength, List.map_map]
  rfl

/-- The positions of a share are among those of the list, in the same order. -/
theorem Share.positions_sublist (hlength : leaders.length = partitions.length)
    (broker : Broker σ) :
    ((Share.of (numbered 0 partitions leaders) broker).places.map (·.1)).Sublist
      (List.range partitions.length) := by
  have hled : ((numbered 0 partitions leaders).filter (·.leader.id = broker.id)).Sublist
      (numbered 0 partitions leaders) := List.filter_sublist
  have hindices := hled.map Led.index
  rw [map_index_numbered hlength, ← List.range_eq_range'] at hindices
  simpa [Share.of, Function.comp_def, Led.place] using hindices

/-- Dividing partitions among their leaders parts their positions. -/
theorem Share.divide_parts (hlength : leaders.length = partitions.length) :
    Parts partitions (leaders.map Broker.id) (Share.divide (numbered 0 partitions leaders)) where
  distinct := map_id_divide_numbered hlength ▸ nodup_firstsBy Broker.id leaders
  ordered := by
    rw [map_id_divide_numbered hlength, List.pairwise_map]
    exact firstsBy_pairwise_idxOf Broker.id leaders
  covered := positions_divide_perm hlength
  own := by
    rintro _ hshare ⟨place, partition⟩ hplace
    obtain ⟨broker, -, rfl⟩ := mem_divide_numbered hlength hshare
    obtain ⟨leader, hpartition, hleader, hid⟩ := mem_places_of_numbered.mp hplace
    refine ⟨hpartition, ?_⟩
    rw [List.getElem?_map, hleader, Option.map_some, hid]
    rfl
  ascending := by
    intro _ hshare
    obtain ⟨broker, -, rfl⟩ := mem_divide_numbered hlength hshare
    exact List.pairwise_lt_range.sublist (Share.positions_sublist hlength broker)
  inhabited := by
    intro _ hshare
    obtain ⟨broker, hbroker, rfl⟩ := mem_divide_numbered hlength hshare
    -- A broker that stands for its identifier leads at least the position where it is found.
    obtain ⟨place, hleader⟩ := List.mem_iff_getElem?.mp (mem_of_mem_firstsBy hbroker)
    have hplace : place < partitions.length := hlength ▸ (List.getElem?_eq_some_iff.mp hleader).1
    exact List.ne_nil_of_mem (mem_places_of_numbered.mpr
      ⟨broker, List.getElem?_eq_getElem hplace, hleader, rfl⟩)

/-- There are shares, but not more than positions. -/
theorem Share.length_divide (hlength : leaders.length = partitions.length)
    (hsome : partitions ≠ []) :
    1 ≤ (Share.divide (numbered 0 partitions leaders)).length ∧
      (Share.divide (numbered 0 partitions leaders)).length ≤ partitions.length := by
  rw [Share.divide_eq, map_leader_numbered hlength, List.length_map]
  constructor
  · obtain ⟨leader, hleader⟩ := List.exists_mem_of_ne_nil leaders fun hnone => by
      simp [hnone, eq_comm, hsome] at hlength
    obtain ⟨first, hfirst, -⟩ : ∃ first ∈ firstsBy Broker.id leaders, first.id = leader.id :=
      exists_mem_firstsBy hleader
    exact List.length_pos_of_mem hfirst
  · exact hlength ▸ (firstsBy_sublist Broker.id leaders).length_le

end Parting

/-! ## Tasks -/

/-- The task that waits for the replies to a share. Where the first request fails at once, nothing
depends on the second. -/
def Share.task (topic : String) (share : Share σ) : EndReplies →
    Polling.Task Failure ListOffsets.Response ListOffsets.Response (List (Nat × Progress))
  | .cut cause =>
    let failure := ⟨0, .error (.connection (.boundaryOffset .oldest share.broker.id) cause)⟩
    { first := failure, second := failure, next := share.rows topic }
  | .both oldest newest =>
    { first := oldest.mapError (.connection (.boundaryOffset .oldest share.broker.id))
      second := newest.mapError (.connection (.boundaryOffset .newest share.broker.id))
      next := share.rows topic }

theorem Share.outcome_task (topic : String) (share : Share σ) (replies : EndReplies) :
    (share.task topic replies).outcome = share.outcome topic replies := by
  cases replies <;> rfl

/-- The tasks of a survey, with the replies that its leaders give. -/
def surveyTasks (topic : String) (partitions : List Int32) (leaders : List (Broker σ)) (state : σ) :
    List (Polling.Task Failure ListOffsets.Response ListOffsets.Response (List (Nat × Progress))) :=
  ((hear topic partitions leaders).run state).1.map fun answer =>
    (Share.of (numbered 0 partitions leaders) answer.1).task topic answer.2

/-- Each share has one task, which comes to what the share does. -/
theorem map_outcome_surveyTasks (topic : String) {partitions : List Int32}
    {leaders : List (Broker σ)} (hlength : leaders.length = partitions.length) (state : σ) :
    (surveyTasks topic partitions leaders state).map (·.outcome) =
      (((Share.divide (numbered 0 partitions leaders)).mapM (Share.survey topic)).run state).1 := by
  rw [shares_survey_run topic hlength, surveyTasks, List.map_map]
  exact List.map_congr_left fun answer _ => Share.outcome_task topic _ answer.2

theorem length_surveyTasks (topic : String) {partitions : List Int32}
    {leaders : List (Broker σ)} (hlength : leaders.length = partitions.length) (state : σ) :
    (surveyTasks topic partitions leaders state).length =
      (Share.divide (numbered 0 partitions leaders)).length := by
  have hcount := congrArg List.length (map_outcome_surveyTasks topic hlength state)
  rwa [List.length_map, length_mapM_run] at hcount

/-! ## Surveys -/

/-- A survey whose leaders are all found parts the positions of its topic among them. It has as many
tasks as shares, at least one and no more than there are positions. However these are visited, a
channel with room for one failure of each holds as many failures as tasks have failed, so that it
has refused none. If no task fails, every position has one row, and the record of that row is what
stands there in the end. -/
theorem fanout_parts_positions {cluster : Cluster σ} {topic : String} {partitions : List Int32}
    {leaders : List (Broker σ)} {state found : σ} (hsome : partitions ≠ [])
    (hleaders : (partitions.mapM (cluster.leader topic)).run state = (leaders.map .ok, found)) :
    let leds := numbered 0 partitions leaders
    let shares := Share.divide leds
    let tasks := surveyTasks topic partitions leaders found
    let outcomes := ((shares.mapM (Share.survey topic)).run found).1
    (findLeaders cluster topic 0 partitions).runFrom state = (.ok leds, found) ∧
      Parts partitions (leaders.map Broker.id) shares ∧
      (1 ≤ shares.length ∧ shares.length ≤ partitions.length) ∧
      tasks.map (·.outcome) = outcomes ∧
      (∀ slots sent, Polling.Reaches shares.length tasks slots sent →
        sent.length = slots.countP Polling.Slot.failed ∧ sent.length ≤ shares.length) ∧
      ∀ rows : List (List (Nat × Progress)), outcomes.map (·.value) = rows.map .ok →
        (rows.flatten.map (·.1)).Perm (List.range partitions.length) ∧
        ((surveyShares topic partitions.length shares).runFrom found).1 =
          .ok (placeRows partitions.length rows.flatten) ∧
        ∀ row ∈ rows.flatten, row.1 < partitions.length ∧
          (placeRows partitions.length rows.flatten)[row.1]? = some row.2 := by
  intro leds shares tasks outcomes
  have hlength := length_of_lookups hleaders
  have houtcomes : tasks.map (·.outcome) = outcomes := map_outcome_surveyTasks topic hlength found
  have hcount : tasks.length = shares.length := length_surveyTasks topic hlength found
  refine ⟨findLeaders_eq_ok.mpr ⟨leaders, hleaders, rfl⟩, Share.divide_parts hlength,
    Share.length_divide hlength hsome, houtcomes, fun slots sent hreaches => ?_,
    fun rows hrows => ?_⟩
  · obtain ⟨hslots, hsent⟩ := hreaches.length_sent (Nat.le_of_eq hcount)
    refine ⟨hsent, ?_⟩
    calc sent.length = slots.countP Polling.Slot.failed := hsent
      _ ≤ slots.length := List.countP_le_length
      _ = shares.length := hslots.trans hcount
  · have hheard : (((hear topic partitions leaders).run found).1).map
        (fun answer => (outcomeOf topic leds answer).value) = rows.map .ok := by
      rw [← hrows]
      simp only [outcomes, shares, leds, shares_survey_run topic hlength, List.map_map]
      rfl
    have hpositions := positions_of_rows hlength hheard
    have hsurvey : ((surveyShares topic partitions.length shares).runFrom found).1 =
        (Timed.settle outcomes).map fun rows => placeRows partitions.length rows.flatten := rfl
    refine ⟨hpositions, ?_, fun row hrow => ?_⟩
    · rw [hsurvey, Timed.settle_eq_ok.mpr hrows]
      rfl
    · have hplace : row.1 < partitions.length :=
        List.mem_range.mp (hpositions.mem_iff.mp (List.mem_map_of_mem hrow))
      exact ⟨hplace, placeRows_of_mem (hpositions.nodup_iff.mpr List.nodup_range) hrow hplace⟩

/-- Three positions, of which the first and the last have one partition and one leader. If neither
leader replies, both failures fit into a channel with two slots, also when the task of the second
is visited first. If both reply, each position has its record. -/
theorem fanout_parts_positions_of_two_brokers :
    let broker (reply : Reply ListOffsets.Response) (id : Int32) : BrokerReplies :=
      { id, offsets := fun _ => ⟨1, reply⟩ }
    let cluster (reply : Reply ListOffsets.Response) : Cluster Unit :=
      ClusterReplies.cluster
        { partitions := fun _ => .ok [5, 3, 5]
          leader := fun _ partition => .ok (broker reply (if partition = 5 then 7 else 9))
          coordinator := fun _ => .error noReply }
    let leaders (reply : Reply ListOffsets.Response) : List (Broker Unit) :=
      [7, 9, 7].map fun id => (broker reply id).broker
    let shares (reply : Reply ListOffsets.Response) : List (Share Unit) :=
      Share.divide (numbered 0 [5, 3, 5] (leaders reply))
    let silence : Reply ListOffsets.Response := .error noReply
    let failure (id : Int32) : Failure := .connection (.boundaryOffset .oldest id) noReply
    let response : ListOffsets.Response :=
      { topics :=
          [⟨"t", [{ partition := 3, offsets := [6] }, { partition := 5, offsets := [4] }]⟩] }
    (∀ reply, (findLeaders (cluster reply) "t" 0 [5, 3, 5]).runFrom () =
          (.ok (numbered 0 [5, 3, 5] (leaders reply)), ()) ∧
        Parts [5, 3, 5] [7, 9, 7] (shares reply)) ∧
      (∃ slots, Polling.Reaches 2 (surveyTasks "t" [5, 3, 5] (leaders silence) ()) slots
          [failure 9, failure 7] ∧ slots.countP Polling.Slot.failed = 2) ∧
      ((surveyShares "t" 3 (shares (.ok response))).runFrom ()).1 =
        .ok [⟨5, 4, 4, {}⟩, ⟨3, 6, 6, {}⟩, ⟨5, 4, 4, {}⟩] := by
  intro broker cluster leaders shares silence failure response
  have hleaders (reply : Reply ListOffsets.Response) :
      (([5, 3, 5] : List Int32).mapM ((cluster reply).leader "t")).run () =
        ((leaders reply).map .ok, ()) := rfl
  have hfanout (reply : Reply ListOffsets.Response) :=
    fanout_parts_positions (List.cons_ne_nil 5 [3, 5]) (hleaders reply)
  refine ⟨fun reply => ⟨(hfanout reply).1, (hfanout reply).2.1⟩, ?_, ?_⟩
  · obtain ⟨-, -, -, -, hchannel, -⟩ := hfanout silence
    have hcount : (shares silence).length = 2 := (length_surveyTasks "t" rfl ()).symm
    have hreaches : Polling.Reaches 2 (surveyTasks "t" [5, 3, 5] (leaders silence) ())
        [.done none, .done none] [failure 9, failure 7] :=
      .tail (.single (.slot [_] [] 1 rfl)) (.slot [] [_] 1 rfl)
    exact ⟨_, hreaches, (hchannel _ _ (hcount ▸ hreaches)).1.symm⟩
  · obtain ⟨-, -, -, houtcomes, -, hrows⟩ := hfanout (.ok response)
    have hvalues : (((shares (.ok response)).mapM (Share.survey "t")).run ()).1.map (·.value) =
        [[(0, ⟨5, 4, 4, {}⟩), (2, ⟨5, 4, 4, {}⟩)], [(1, ⟨3, 6, 6, {}⟩)]].map .ok :=
      houtcomes ▸ rfl
    exact (hrows _ hvalues).2.1

end ConsumerGroups.Range
