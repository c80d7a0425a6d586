import ConsumerGroups.Proofs.Canned.Survey
import ConsumerGroups.Proofs.Ownership.Scan
import ConsumerGroups.Proofs.Polling

/-! # The failure that a survey reports

Each broker of a survey fails by itself, at a time of its own: because one of its two requests
fails, or because one of its two responses lacks an offset. The survey reports the failure that
comes first. All requests are sent for it, whichever broker fails.
-/

namespace ConsumerGroups.Canned

open Message Range Results

variable {σ : Type}

/-! ## How a broker fails -/

/-- Why a response holds no offset of a partition. -/
inductive Flaw (response : ListOffsets.Response) (topic : String) (partition : Int32) :
    Failure → Prop
  | absent (hblock : blockOf? ListOffsets.Block.partition topic partition response.topics = none) :
      Flaw response topic partition (.protocol (.blockAbsent topic partition))
  | refused {block : ListOffsets.Block}
      (hblock : blockOf? ListOffsets.Block.partition topic partition response.topics = some block)
      (hcode : block.code ≠ 0) :
      Flaw response topic partition (.remote (.blockRefused topic partition) block.code)
  | empty {block : ListOffsets.Block}
      (hblock : blockOf? ListOffsets.Block.partition topic partition response.topics = some block)
      (hcode : block.code = 0) (hoffsets : block.offsets = []) :
      Flaw response topic partition (.protocol (.offsetAbsent topic partition))

/-- Why the range of a partition cannot be read from the two responses of a broker. The oldest
offset is looked at first. -/
inductive RangeFlaw (id : Int32) (topic : String) (oldest newest : ListOffsets.Response)
    (partition : Int32) : Failure → Prop
  | oldest {failure : Failure} (hflaw : Flaw oldest topic partition failure) :
      RangeFlaw id topic oldest newest partition (failure.within (.boundaryOffset .oldest id))
  | newest {failure : Failure} (hsound : ∀ other, ¬Flaw oldest topic partition other)
      (hflaw : Flaw newest topic partition failure) :
      RangeFlaw id topic oldest newest partition (failure.within (.boundaryOffset .newest id))

/-- How a broker that is asked about some partitions fails, and when. A request that fails counts
as soon as it does, and the one for the oldest offsets goes first on a tie. If both requests are
answered, then the first partition whose range cannot be read counts, once both are there. -/
inductive Fails (topic : String) (asked : List Int32) (broker : BrokerReplies) :
    Timed Failure → Prop
  | oldest {time : Nat} {cause : Cause} (hreply : broker.offsets .oldest = ⟨time, .error cause⟩)
      (hfirst : ∀ other later, broker.offsets .newest = ⟨other, .error later⟩ → time ≤ other) :
      Fails topic asked broker ⟨time, .connection (.boundaryOffset .oldest broker.id) cause⟩
  | newest {time : Nat} {cause : Cause} (hreply : broker.offsets .newest = ⟨time, .error cause⟩)
      (hfirst : ∀ other later, broker.offsets .oldest = ⟨other, .error later⟩ → time < other) :
      Fails topic asked broker ⟨time, .connection (.boundaryOffset .newest broker.id) cause⟩
  | range {sooner later : Nat} {oldest newest : ListOffsets.Response} {passed rest : List Int32}
      {partition : Int32} {failure : Failure}
      (holdest : broker.offsets .oldest = ⟨sooner, .ok oldest⟩)
      (hnewest : broker.offsets .newest = ⟨later, .ok newest⟩)
      (hasked : asked = passed ++ partition :: rest)
      (hpassed : ∀ other ∈ passed, ∀ flaw, ¬RangeFlaw broker.id topic oldest newest other flaw)
      (hflaw : RangeFlaw broker.id topic oldest newest partition failure) :
      Fails topic asked broker ⟨max sooner later, failure⟩

theorem flaw_iff {response : ListOffsets.Response} {topic : String} {partition : Int32}
    {failure : Failure} :
    Flaw response topic partition failure ↔ response.offsetOf topic partition = .error failure := by
  unfold ListOffsets.Response.offsetOf
  constructor
  · rintro (hblock | ⟨hblock, hcode⟩ | ⟨hblock, hcode, hoffsets⟩)
    · simp [hblock]
    · simp [hblock, hcode]
    · simp [hblock, hcode, hoffsets]
  · intro hfailure
    split at hfailure
    · cases hfailure
      exact .absent ‹_›
    · split at hfailure
      · cases hfailure
        exact .refused ‹_› ‹_›
      · split at hfailure
        · cases hfailure
          exact .empty ‹_› (Decidable.not_not.mp ‹_›) ‹_›
        · cases hfailure

/-- A response without a flaw holds an offset. -/
theorem not_flaw_iff {response : ListOffsets.Response} {topic : String} {partition : Int32} :
    (∀ failure, ¬Flaw response topic partition failure) ↔
      ∃ offset, response.offsetOf topic partition = .ok offset := by
  simp only [flaw_iff]
  cases response.offsetOf topic partition <;> simp

theorem row_eq_error {share : Share σ} {topic : String} {oldest newest : ListOffsets.Response}
    {place : Nat × Int32} {failure : Failure} :
    share.row topic oldest newest place = .error failure ↔
      RangeFlaw share.broker.id topic oldest newest place.2 failure := by
  simp only [Share.row, Share.offsetAt, bind_eq_error, inContext_eq_error, inContext_eq_ok]
  constructor
  · rintro (⟨inner, hinner, rfl⟩ | ⟨offset, hoffset, ⟨inner, hinner, rfl⟩ | ⟨_, _, hpure⟩⟩)
    · exact .oldest (flaw_iff.mpr hinner)
    · exact .newest (not_flaw_iff.mpr ⟨offset, hoffset⟩) (flaw_iff.mpr hinner)
    · cases hpure
  · rintro (hflaw | ⟨hsound, hflaw⟩)
    · exact .inl ⟨_, flaw_iff.mp hflaw, rfl⟩
    · obtain ⟨offset, hoffset⟩ := not_flaw_iff.mp hsound
      exact .inr ⟨offset, hoffset, .inl ⟨_, flaw_iff.mp hflaw, rfl⟩⟩

/-- A share whose requests are answered fails at the first partition whose range cannot be read. -/
theorem rows_eq_error {share : Share σ} {topic : String} {oldest newest : ListOffsets.Response}
    {failure : Failure} :
    share.rows topic (oldest, newest) = .error failure ↔
      ∃ passed partition rest, share.partitions = passed ++ partition :: rest ∧
        (∀ other ∈ passed, ∀ flaw,
          ¬RangeFlaw share.broker.id topic oldest newest other flaw) ∧
        RangeFlaw share.broker.id topic oldest newest partition failure := by
  have hsound {place : Nat × Int32} : (∃ row, share.row topic oldest newest place = .ok row) ↔
      ∀ flaw, ¬RangeFlaw share.broker.id topic oldest newest place.2 flaw := by
    simp only [← row_eq_error]
    cases share.row topic oldest newest place <;> simp
  simp only [Share.rows, mapM_eq_error_iff, hsound, row_eq_error, Share.partitions]
  constructor
  · rintro ⟨passed, place, rest, hplaces, hpassed, hflaw⟩
    refine ⟨passed.map (·.2), place.2, rest.map (·.2), by simp [hplaces], ?_, hflaw⟩
    rintro _ hother
    obtain ⟨other, hmem, rfl⟩ := List.mem_map.mp hother
    exact hpassed other hmem
  · rintro ⟨passed, partition, rest, hpartitions, hpassed, hflaw⟩
    obtain ⟨before, after, hplaces, rfl, hafter⟩ := List.map_eq_append_iff.mp hpartitions
    obtain ⟨place, later, rfl, rfl, rfl⟩ := List.map_eq_cons_iff.mp hafter
    exact ⟨before, place, later, hplaces,
      fun other hother => hpassed other.2 (List.mem_map_of_mem hother), hflaw⟩

/-! ## The task of a broker -/

/-- The task that waits for both replies of a broker. -/
def taskFrom (topic : String) (partitions : List Int32) (leaders : List BrokerReplies)
    (broker : BrokerReplies) :
    Polling.Task Failure ListOffsets.Response ListOffsets.Response (List (Nat × Progress)) where
  first := (broker.offsets .oldest).mapError (.connection (.boundaryOffset .oldest broker.id))
  second := (broker.offsets .newest).mapError (.connection (.boundaryOffset .newest broker.id))
  next := (Share.of (numbered 0 partitions (leaders.map (BrokerReplies.broker (σ := Unit))))
    broker.broker).rows topic

/-- A task whose first request fails at once comes to the same without the second. -/
theorem outcome_taskFrom (topic : String) (partitions : List Int32) (leaders : List BrokerReplies)
    (broker : BrokerReplies) :
    (taskFrom topic partitions leaders broker).outcome =
      outcomeFrom topic partitions leaders broker := by
  unfold taskFrom Polling.Task.outcome outcomeFrom outcomeOf BrokerReplies.ends
  rcases broker.offsets .oldest with ⟨time, cause | response⟩
  · cases time with
    | zero =>
        rcases broker.offsets .newest with ⟨later, _ | _⟩ <;>
          simp [Share.outcome, Timed.mapError, Timed.both, Timed.andThen, Except.mapError,
            Except.bind] <;> rfl
    | succ time => rfl
  · cases time <;> rfl

/-- What a broker comes to is a failure exactly if the broker fails. -/
theorem fails_iff {topic : String} {partitions : List Int32} {leaders : List BrokerReplies}
    {broker : BrokerReplies} {failure : Timed Failure} :
    Fails topic (ledBy broker.id partitions (leaders.map BrokerReplies.id)) broker failure ↔
      outcomeFrom topic partitions leaders broker = ⟨failure.time, .error failure.value⟩ := by
  have hasked : (Share.of (numbered 0 partitions (leaders.map (BrokerReplies.broker (σ := Unit))))
      broker.broker).partitions = ledBy broker.id partitions (leaders.map BrokerReplies.id) := by
    rw [partitions_of_numbered, List.map_map]
    rfl
  rcases failure with ⟨time, failure⟩
  rw [← outcome_taskFrom, Polling.Task.outcome, Timed.both_andThen_eq_error]
  simp only [taskFrom, Timed.mapError_eq_failure, Timed.mapError_eq_success, rows_eq_error, hasked]
  constructor
  · rintro (⟨hreply, hfirst⟩ | ⟨hreply, hfirst⟩ | ⟨holdest, hnewest, hasked, hpassed, hflaw⟩)
    · refine .inl ⟨⟨_, hreply, rfl⟩, ?_⟩
      rintro other _ ⟨later, hlater, -⟩
      exact hfirst other later hlater
    · refine .inr (.inl ⟨⟨_, hreply, rfl⟩, ?_⟩)
      rintro other _ ⟨later, hlater, -⟩
      exact hfirst other later hlater
    · exact .inr (.inr ⟨_, _, _, _, holdest, hnewest, rfl, _, _, _, hasked, hpassed, hflaw⟩)
  · rintro (⟨⟨cause, hreply, rfl⟩, hfirst⟩ | ⟨⟨cause, hreply, rfl⟩, hfirst⟩ |
      ⟨_, _, _, _, holdest, hnewest, rfl, _, _, _, hasked, hpassed, hflaw⟩)
    · exact .oldest hreply fun other later hlater => hfirst other _ ⟨later, hlater, rfl⟩
    · exact .newest hreply fun other later hlater => hfirst other _ ⟨later, hlater, rfl⟩
    · exact .range holdest hnewest hasked hpassed hflaw

/-! ## The failure of a survey -/

/-- The brokers that a survey asks, in the order in which they are first seen, each with the
partitions that it is asked about. -/
def bucketsOf (partitions : List Int32) (leaders : List BrokerReplies) :
    List (BrokerReplies × List Int32) :=
  (firstsBy BrokerReplies.id leaders).map fun broker =>
    (broker, ledBy broker.id partitions (leaders.map BrokerReplies.id))

/-- The broker at a place fails, and no other before it: sooner, or at the same time and at an
earlier place. -/
structure FirstToFail (topic : String) (buckets : List (BrokerReplies × List Int32)) (place : Nat)
    (earliest : Timed Failure) : Prop where
  fails : ∃ broker asked, buckets[place]? = some (broker, asked) ∧ Fails topic asked broker earliest
  first : ∀ other broker asked later, buckets[other]? = some (broker, asked) →
    Fails topic asked broker later →
      earliest.time < later.time ∨ (earliest.time = later.time ∧ place ≤ other)

section Survey

variable {replies : ClusterReplies} {topic : String} {partitions : List Int32}
  {leaders : List BrokerReplies}

theorem fails_at_iff {place : Nat} {failure : Timed Failure} :
    (∃ broker asked, (bucketsOf partitions leaders)[place]? = some (broker, asked) ∧
        Fails topic asked broker failure) ↔
      ((firstsBy BrokerReplies.id leaders).map (outcomeFrom topic partitions leaders))[place]? =
        some ⟨failure.time, .error failure.value⟩ := by
  simp only [bucketsOf, List.getElem?_map, Option.map_eq_some_iff, Prod.mk.injEq, ← fails_iff]
  constructor
  · rintro ⟨_, _, ⟨broker, hbroker, rfl, rfl⟩, hfails⟩
    exact ⟨broker, hbroker, hfails⟩
  · rintro ⟨broker, hbroker, hfails⟩
    exact ⟨_, _, ⟨broker, hbroker, rfl, rfl⟩, hfails⟩

/-- The first broker to fail is the first failure of what the brokers come to. -/
theorem firstToFail_iff {place : Nat} {earliest : Timed Failure} :
    FirstToFail topic (bucketsOf partitions leaders) place earliest ↔
      Timed.FailsFirst ((firstsBy BrokerReplies.id leaders).map
        (outcomeFrom topic partitions leaders)) place earliest := by
  constructor
  · rintro ⟨hfails, hfirst⟩
    refine ⟨fails_at_iff.mp hfails, fun other time failure hother => ?_⟩
    obtain ⟨broker, asked, hbroker, hlater⟩ :=
      (@fails_at_iff topic partitions leaders other ⟨time, failure⟩).mpr hother
    exact hfirst other broker asked ⟨time, failure⟩ hbroker hlater
  · rintro ⟨hfailed, hfirst⟩
    exact ⟨fails_at_iff.mpr hfailed, fun other broker asked later hbroker hlater =>
      hfirst other later.time later.value (fails_at_iff.mp ⟨broker, asked, hbroker, hlater⟩)⟩

/-- The lookups of leaders that are all found. -/
theorem leaderCalls_of_found (hleaders : partitions.map (replies.leader topic) = leaders.map .ok) :
    leaderCalls replies topic partitions =
      List.zipWith (fun partition leader => .leader topic partition (.ok leader.id))
        partitions leaders := by
  induction partitions generalizing leaders with
  | nil => rfl
  | cons partition rest ih =>
      cases leaders with
      | nil => cases hleaders
      | cons leader others =>
          obtain ⟨hleader, hothers⟩ := List.cons.inj hleaders
          rw [List.zipWith_cons_cons, ← ih hothers, leaderCalls, upToFirst, hleader]
          simp only [Except.isOk, Except.toBool, Bool.not_true, Bool.false_eq_true, if_false,
            List.map_cons, hleader]
          rfl

theorem leadersOf_of_found (hleaders : partitions.map (replies.leader topic) = leaders.map .ok) :
    leadersOf replies topic partitions = .ok leaders := by
  induction partitions generalizing leaders with
  | nil =>
      cases leaders with
      | nil => rfl
      | cons leader others => cases hleaders
  | cons partition rest ih =>
      cases leaders with
      | nil => cases hleaders
      | cons leader others =>
          obtain ⟨hleader, hothers⟩ := List.cons.inj hleaders
          have hrest := ih hothers
          rw [leadersOf] at hrest
          rw [leadersOf, List.mapM_cons, hrest, hleader]
          rfl

theorem surveyResult_of_found (hlisted : replies.partitions topic = .ok partitions)
    (hleaders : partitions.map (replies.leader topic) = leaders.map .ok) :
    surveyResult replies topic =
      (Timed.settle ((firstsBy BrokerReplies.id leaders).map
        (outcomeFrom topic partitions leaders))).map fun rows =>
          placeRows partitions.length rows.flatten := by
  rw [surveyResult, hlisted]
  change (leadersOf replies topic partitions >>= _) = _
  rw [leadersOf_of_found hleaders]
  rfl

/-- If some broker fails, one of them is the first to fail. -/
theorem exists_firstToFail {broker : BrokerReplies} {asked : List Int32} {failure : Timed Failure}
    (hbroker : (broker, asked) ∈ bucketsOf partitions leaders)
    (hfails : Fails topic asked broker failure) :
    ∃ place earliest, FirstToFail topic (bucketsOf partitions leaders) place earliest := by
  obtain ⟨place, hplace⟩ := List.mem_iff_getElem?.mp hbroker
  have hfailed := fails_at_iff.mp ⟨broker, asked, hplace, hfails⟩
  obtain ⟨earliest, hearliest⟩ := Option.ne_none_iff_exists'.mp
    (Timed.earliestFailure?_ne_none (List.mem_of_getElem? hfailed) rfl)
  obtain ⟨first, hfirst⟩ := Timed.exists_failsFirst hearliest
  exact ⟨first, earliest, firstToFail_iff.mpr hfirst⟩

theorem message_boundaryOffset (boundary : Boundary) (id : Int32) (failure : Failure) :
    (failure.within (.boundaryOffset boundary id)).message =
      "failed to fetch " ++ boundary.word ++ " offset, broker=" ++ toString id ++ ": " ++
        failure.message := by
  rw [Ownership.message_within]
  rfl

/-- A survey whose leaders are all found sends its requests to every broker, whichever fails: what
one broker is asked does not depend on the others. If some broker fails, the survey reports the
failure of the first to do so, with its reason, below the layer that names the end and the broker.
That is also the failure that is sent first when the brokers' tasks are polled in the order of the
brokers, each at its time. -/
theorem survey_reports_first (hlisted : replies.partitions topic = .ok partitions)
    (hleaders : partitions.map (replies.leader topic) = leaders.map .ok) (recorded : Recorded σ) :
    let buckets := bucketsOf partitions leaders
    let tasks := (firstsBy BrokerReplies.id leaders).map (taskFrom topic partitions leaders)
    ∃ result, (survey (replies.cluster : Cluster σ).recorded topic).runFrom recorded =
        (result, { recorded with log := recorded.log ++
          (.partitions topic (.ok partitions) ::
            List.zipWith (fun partition leader => .leader topic partition (.ok leader.id))
              partitions leaders ++
            buckets.flatMap fun (broker, asked) => endCalls topic asked broker) }) ∧
      ((∃ failure, result = .error failure) ↔
        ∃ broker asked failure, (broker, asked) ∈ buckets ∧ Fails topic asked broker failure) ∧
      (∀ failure, result = .error failure ↔
        ∃ place time, FirstToFail topic buckets place ⟨time, failure⟩) ∧
      (∀ instants : List Nat, instants.Pairwise (· < ·) →
        (∀ task ∈ tasks, task.outcome.time ∈ instants) →
        (Polling.run instants tasks).map (Except.map fun rows =>
          placeRows partitions.length rows.flatten) = some result) ∧
      ∀ (boundary : Boundary) (id : Int32) (failure : Failure),
        (failure.within (.boundaryOffset boundary id)).reason = failure.reason ∧
        (failure.within (.boundaryOffset boundary id)).message =
          "failed to fetch " ++ boundary.word ++ " offset, broker=" ++ toString id ++ ": " ++
            failure.message := by
  intro buckets tasks
  have houtcomes : tasks.map Polling.Task.outcome = (firstsBy BrokerReplies.id leaders).map
      (outcomeFrom topic partitions leaders) := by
    rw [List.map_map]
    exact List.map_congr_left fun broker _ => outcome_taskFrom topic partitions leaders broker
  have hcalls : surveyCalls replies topic = .partitions topic (.ok partitions) ::
      (List.zipWith (fun partition leader => .leader topic partition (.ok leader.id))
        partitions leaders ++
      buckets.flatMap fun (broker, asked) => endCalls topic asked broker) := by
    rw [surveyCalls, hlisted]
    simp only [leaderCalls_of_found hleaders, leadersOf_of_found hleaders, rangeCalls, buckets,
      bucketsOf, List.flatMap_map]
  have hreports (failure : Failure) : surveyResult replies topic = .error failure ↔
      ∃ place time, FirstToFail topic buckets place ⟨time, failure⟩ := by
    rw [surveyResult_of_found hlisted hleaders, map_eq_error, Timed.settle_eq_error_iff]
    simp only [buckets, firstToFail_iff]
  refine ⟨surveyResult replies topic, ?_, ?_, hreports, fun instants hascending hready => ?_,
    fun boundary id failure => ⟨rfl, message_boundaryOffset boundary id failure⟩⟩
  · rw [recorded_eq_noting, survey_noting, noteAll_inLog, hcalls]
    rfl
  · constructor
    · rintro ⟨failure, hfailure⟩
      obtain ⟨place, time, ⟨broker, asked, hbroker, hfails⟩, -⟩ := (hreports failure).mp hfailure
      exact ⟨broker, asked, _, List.mem_of_getElem? hbroker, hfails⟩
    · rintro ⟨broker, asked, failure, hbroker, hfails⟩
      obtain ⟨place, earliest, hfirst⟩ := exists_firstToFail hbroker hfails
      exact ⟨earliest.value, (hreports earliest.value).mpr ⟨place, earliest.time, hfirst⟩⟩
  · rw [Polling.run_eq_settle hascending hready, houtcomes, Option.map_some,
      surveyResult_of_found hlisted hleaders]

/-- A broker that is seen later reports that a block is missing before the request to the first
one fails: the survey fails as the later one does. -/
theorem survey_reports_missing_block :
    let slow : BrokerReplies :=
      { id := 7
        offsets := fun
          | .oldest => ⟨3, .ok { topics := [⟨"t", [{ partition := 0, offsets := [5] }]⟩] }⟩
          | .newest => ⟨5, .error noReply⟩ }
    let quick : BrokerReplies :=
      { id := 9
        offsets := fun
          | .oldest => ⟨4, .ok { topics := [] }⟩
          | .newest => ⟨2, .ok { topics := [⟨"t", [{ partition := 1, offsets := [8] }]⟩] }⟩ }
    let replies : ClusterReplies :=
      { partitions := fun _ => .ok [0, 1]
        leader := fun _ partition => .ok (if partition = 0 then slow else quick)
        coordinator := fun _ => .error noReply }
    let failure := (Failure.protocol (.blockAbsent "t" 1)).within (.boundaryOffset .oldest 9)
    replies.partitions "t" = .ok [0, 1] ∧
      [0, 1].map (replies.leader "t") = [slow, quick].map .ok ∧
      ((survey (replies.cluster : Cluster Unit).recorded "t").runFrom ⟨(), []⟩).1 =
        .error failure ∧
      (Polling.run [0, 2, 4, 5] ([slow, quick].map (taskFrom "t" [0, 1] [slow, quick]))).map
        (Except.map fun rows => placeRows 2 rows.flatten) = some (.error failure) := by
  intro slow quick replies failure
  have hlisted : replies.partitions "t" = .ok [0, 1] := rfl
  have hleaders : [0, 1].map (replies.leader "t") = [slow, quick].map .ok := rfl
  obtain ⟨result, hrun, -, hreports, hpolled, -⟩ :=
    survey_reports_first hlisted hleaders (⟨(), []⟩ : Recorded Unit)
  have hearliest : Timed.earliestFailure? ((firstsBy BrokerReplies.id [slow, quick]).map
      (outcomeFrom "t" [0, 1] [slow, quick])) = some ⟨4, failure⟩ := by rfl
  obtain ⟨place, hfirst⟩ := Timed.exists_failsFirst hearliest
  obtain rfl := (hreports failure).mpr ⟨place, 4, firstToFail_iff.mpr hfirst⟩
  exact ⟨hlisted, hleaders, congrArg Prod.fst hrun, hpolled [0, 2, 4, 5] (by decide) (by decide)⟩

end Survey

end ConsumerGroups.Canned
