import ConsumerGroups.Proofs.Canned.Noting
import ConsumerGroups.Proofs.Range.Survey

/-! # The calls of a survey

Which calls a survey makes follows from the replies alone, and so does its result: whether and
how the calls are noted has no influence on either.
-/

namespace ConsumerGroups.Canned

open Message Range Results

variable {σ : Type}

/-- The elements of a list up to and including the first one that stops. -/
def upToFirst {α : Type} (stops : α → Bool) : List α → List α
  | [] => []
  | item :: rest => if stops item then [item] else item :: upToFirst stops rest

/-- The replies of a broker that is asked for both ends of its logs. -/
def BrokerReplies.ends (replies : BrokerReplies) : EndReplies :=
  match replies.offsets .oldest with
  | ⟨0, .error cause⟩ => .cut cause
  | oldest => .both oldest (replies.offsets .newest)

/-- The leaders of some partitions, or why the first one missing cannot be found. -/
def leadersOf (replies : ClusterReplies) (topic : String) (partitions : List Int32) :
    Except Failure (List BrokerReplies) :=
  partitions.mapM fun partition =>
    (replies.leader topic partition).mapError (.connection (.partitionLeader partition))

/-- What the share of a broker comes to. -/
def outcomeFrom (topic : String) (partitions : List Int32) (leaders : List BrokerReplies)
    (broker : BrokerReplies) : Timed (Except Failure (List (Nat × Progress))) :=
  let leds : List (Led Unit) := numbered 0 partitions (leaders.map BrokerReplies.broker)
  outcomeOf topic leds (broker.broker, broker.ends)

/-- The result of a survey. -/
def surveyResult (replies : ClusterReplies) (topic : String) : Except Failure (List Progress) := do
  let partitions ← (replies.partitions topic).mapError (.connection .topicPartitions)
  let leaders ← leadersOf replies topic partitions
  let outcomes := (firstsBy BrokerReplies.id leaders).map (outcomeFrom topic partitions leaders)
  (Timed.settle outcomes).map fun rows => placeRows partitions.length rows.flatten

/-! ## Calls -/

/-- One lookup for each partition, up to the first that fails. -/
def leaderCalls (replies : ClusterReplies) (topic : String) (partitions : List Int32) :
    List Exchange :=
  (upToFirst (fun partition => !(replies.leader topic partition).isOk) partitions).map
    fun partition => .leader topic partition ((replies.leader topic partition).map (·.id))

/-- A request for the oldest and one for the newest offsets of the same partitions, unless the
first fails at once. -/
def endCalls (topic : String) (partitions : List Int32) (broker : BrokerReplies) :
    List Exchange :=
  let ask (boundary : Boundary) : Exchange := .listOffsets broker.id ListOffsets.version
    (ListOffsets.request topic partitions boundary.timestamp) (broker.offsets boundary)
  if (broker.offsets .oldest).failsAtOnce then [ask .oldest] else [ask .oldest, ask .newest]

/-- The requests for offsets: the first broker of every identifier, in the order in which the
identifiers are first seen, is asked about the partitions that the identifier leads. -/
def rangeCalls (topic : String) (partitions : List Int32) (leaders : List BrokerReplies) :
    List Exchange :=
  (firstsBy BrokerReplies.id leaders).flatMap fun broker =>
    endCalls topic (ledBy broker.id partitions (leaders.map BrokerReplies.id)) broker

/-- The calls of a survey. Nobody is asked for offsets unless every leader is found. -/
def surveyCalls (replies : ClusterReplies) (topic : String) : List Exchange :=
  .partitions topic (replies.partitions topic) ::
    match replies.partitions topic with
    | .error _ => []
    | .ok partitions =>
      leaderCalls replies topic partitions ++
        match leadersOf replies topic partitions with
        | .error _ => []
        | .ok leaders => rangeCalls topic partitions leaders

/-! ## The course of a survey -/

section Course

variable {note : Exchange → σ → σ}

theorem length_of_leadersOf {replies : ClusterReplies} {topic : String} {partitions : List Int32}
    {leaders : List BrokerReplies} (hleaders : leadersOf replies topic partitions = .ok leaders) :
    leaders.length = partitions.length := by
  have hall := congrArg List.length (mapM_eq_ok.mp hleaders)
  simpa using hall.symm

theorem findLeaders_noting (replies : ClusterReplies) (topic : String) (start : Nat)
    (partitions : List Int32) (state : σ) :
    (findLeaders (replies.noting note) topic start partitions).runFrom state =
      ((leadersOf replies topic partitions).map fun leaders =>
          numbered start partitions (leaders.map (BrokerReplies.noting note)),
        noteAll note (leaderCalls replies topic partitions) state) := by
  induction partitions generalizing start state with
  | nil => rfl
  | cons partition rest ih =>
      have hlookup : ((replies.noting note).leader topic partition).run state =
          ((replies.leader topic partition).map (BrokerReplies.noting note),
            note (.leader topic partition ((replies.leader topic partition).map (·.id))) state) :=
        rfl
      rw [findLeaders_cons_run, hlookup]
      unfold leadersOf leaderCalls upToFirst
      rw [List.mapM_cons]
      cases hanswer : replies.leader topic partition with
      | error cause =>
          simp [hanswer, Except.map, Except.mapError, Except.isOk, Except.toBool, bind, Except.bind]
      | ok leader =>
          simp only [Except.map, ih]
          unfold leadersOf leaderCalls
          cases rest.mapM fun partition =>
            (replies.leader topic partition).mapError
              (Failure.connection (.partitionLeader partition)) <;>
          simp [hanswer, Except.map, Except.mapError, Except.isOk, Except.toBool, bind, Except.bind,
            numbered, pure, Except.pure]

theorem askEnds_noting (topic : String) {partitions : List Int32} (hne : partitions ≠ [])
    (replies : BrokerReplies) (state : σ) :
    (askEnds topic partitions (replies.noting note)).run state =
      (replies.ends, noteAll note (endCalls topic partitions replies) state) := by
  obtain ⟨partition, rest, rfl⟩ := List.exists_cons_of_ne_nil hne
  -- A request that names a partition is answered with the end that it asks for.
  have hask (boundary : Boundary) (state : σ) :
      ((replies.noting note).listOffsets ListOffsets.version
        (ListOffsets.request topic (partition :: rest) boundary.timestamp)).run state =
        (replies.offsets boundary, note (.listOffsets replies.id ListOffsets.version
          (ListOffsets.request topic (partition :: rest) boundary.timestamp)
          (replies.offsets boundary)) state) := by
    cases boundary <;> rfl
  unfold askEnds BrokerReplies.ends endCalls
  simp only [bind_run, hask]
  rcases replies.offsets .oldest with ⟨time, answer⟩
  cases answer with
  | ok oldest => simp [-StateT.run_map, map_run, hask, Timed.failsAtOnce]
  | error cause =>
      cases time with
      | zero => rfl
      | succ time => simp [-StateT.run_map, map_run, hask, Timed.failsAtOnce]

/-- Every broker that is asked leads some partition. -/
theorem ledBy_ne_nil {partitions : List Int32} {leaders : List BrokerReplies}
    (hlength : leaders.length = partitions.length) {broker : BrokerReplies}
    (hbroker : broker ∈ leaders) :
    ledBy broker.id partitions (leaders.map BrokerReplies.id) ≠ [] := by
  obtain ⟨place, hleader⟩ := List.mem_iff_getElem?.mp hbroker
  have hplace := (List.getElem?_eq_some_iff.mp hleader).1
  have hmem : (partitions[place], broker.id) ∈ partitions.zip (leaders.map BrokerReplies.id) :=
    List.mem_iff_getElem?.mpr ⟨place, by simp [List.getElem?_zip_eq_some, hleader]⟩
  have hled : partitions[place] ∈ ledBy broker.id partitions (leaders.map BrokerReplies.id) :=
    List.mem_map.mpr ⟨_, List.mem_filter.mpr ⟨hmem, by simp⟩, rfl⟩
  exact List.ne_nil_of_mem hled

/-- Brokers that note their calls answer one after another, each about its own partitions. -/
theorem hear_noting (topic : String) {partitions : List Int32} {leaders : List BrokerReplies}
    (hlength : leaders.length = partitions.length) (state : σ) :
    (hear topic partitions (leaders.map (BrokerReplies.noting note))).run state =
      ((firstsBy BrokerReplies.id leaders).map fun broker => (broker.noting note, broker.ends),
        noteAll note (rangeCalls topic partitions leaders) state) := by
  have hfirsts : firstsBy Broker.id (leaders.map (BrokerReplies.noting note)) =
      (firstsBy BrokerReplies.id leaders).map (BrokerReplies.noting note) :=
    firstsBy_map _ _
  rw [hear, hfirsts, List.mapM_map, List.map_map]
  refine mapM_noting (fun broker hbroker state => ?_) state
  have hasked := ledBy_ne_nil hlength (mem_of_mem_firstsBy hbroker)
  exact congrArg (Prod.map (broker.noting note, ·) id) (askEnds_noting topic hasked broker state)

theorem outcomeOf_noting (topic : String) (partitions : List Int32)
    (leaders : List BrokerReplies) (broker : BrokerReplies) :
    outcomeOf topic (numbered 0 partitions (leaders.map (BrokerReplies.noting note)))
        (broker.noting note, broker.ends) = outcomeFrom topic partitions leaders broker := by
  have hids : (leaders.map (BrokerReplies.noting note)).map Broker.id =
      (leaders.map (BrokerReplies.broker (σ := Unit))).map Broker.id := by
    rw [List.map_map, List.map_map]
    rfl
  refine Share.outcome_congr ?_ ?_ topic broker.ends
  · rfl
  · exact places_of_numbered_congr hids rfl 0 partitions

/-- A survey of a canned cluster makes its calls, and its result does not depend on what becomes
of the notes of them. -/
theorem survey_noting (replies : ClusterReplies) (topic : String) (state : σ) :
    (survey (replies.noting note) topic).runFrom state =
      (surveyResult replies topic, noteAll note (surveyCalls replies topic) state) := by
  have hlisted : ((replies.noting note).partitions topic).run state =
      (replies.partitions topic, note (.partitions topic (replies.partitions topic)) state) := rfl
  rw [survey_run, hlisted]
  unfold surveyResult surveyCalls
  rw [noteAll_cons]
  cases replies.partitions topic with
  | error cause => rfl
  | ok partitions =>
      simp only [findLeaders_noting]
      cases hleaders : leadersOf replies topic partitions with
      | error failure => simp [Except.map, Except.mapError, hleaders, bind, Except.bind]
      | ok leaders =>
          have hlength := length_of_leadersOf hleaders
          have hasked : (leaders.map (BrokerReplies.noting note)).length = partitions.length := by
            rw [List.length_map, hlength]
          simp only [Except.map, surveyShares_run topic hasked, hear_noting topic hlength,
            List.map_map, Function.comp_def, outcomeOf_noting]
          simp [Except.mapError, hleaders, bind, Except.bind, noteAll_append]

end Course

end ConsumerGroups.Canned
