import ConsumerGroups.Console
import ConsumerGroups.Proofs.Canned.Survey
import ConsumerGroups.Proofs.Links

/-! # The calls of a progress query

How far a group has got is asked in two stages, the survey of the topic and the fetch of the
marks, and the second starts only when the first has found something. Every collaborator call
belongs to one of the stages; what the first failure is decides where the calls end.
-/

namespace ConsumerGroups.Canned

open Message Results

variable {σ : Type}

/-! ## Stages -/

/-- What the survey of a topic comes to, by itself. -/
def rangesFrom (replies : ClusterReplies) (topic : String) : Except Failure (List Progress) :=
  ((Range.survey (replies.cluster : Cluster Unit) topic).runFrom ()).1

/-- What the fetch of a group's marks comes to, by itself. -/
def marksFrom (replies : ClusterReplies) (group topic : String) (partitions : List Int32) :
    Except Failure (List Mark) :=
  ((Commitment.fetch (replies.cluster : Cluster Unit) group topic partitions).runFrom ()).1

/-- The lookup of the coordinator and, if it is found, the request for the marks. -/
def markCalls (replies : ClusterReplies) (group topic : String) (partitions : List Int32) :
    List Exchange :=
  .coordinator group ((replies.coordinator group).map (·.id)) ::
    match replies.coordinator group with
    | .error _ => []
    | .ok coordinator =>
      [.offsetFetch coordinator.id OffsetFetch.version (OffsetFetch.request group topic partitions)
        coordinator.fetch]

theorem rangesFrom_eq (replies : ClusterReplies) (topic : String) :
    rangesFrom replies topic = surveyResult replies topic := by
  rw [rangesFrom, cluster_eq_noting, survey_noting]

/-- A fetch of marks from a canned cluster makes its calls, whatever becomes of the notes. -/
theorem fetch_noting {note : Exchange → σ → σ} (replies : ClusterReplies) (group topic : String)
    (partitions : List Int32) (state : σ) :
    (Commitment.fetch (replies.noting note) group topic partitions).runFrom state =
      (marksFrom replies group topic partitions,
        noteAll note (markCalls replies group topic partitions) state) := by
  have hfound : (replies.noting note).coordinator group state =
      ((replies.coordinator group).map (CoordinatorReplies.noting note),
        note (.coordinator group ((replies.coordinator group).map (·.id))) state) := rfl
  have hplain : (replies.cluster : Cluster Unit).coordinator group () =
      ((replies.coordinator group).map CoordinatorReplies.coordinator, ()) := rfl
  unfold marksFrom markCalls Commitment.fetch
  rw [Errand.runFrom_bind, Errand.runFrom_bind, Errand.runFrom_await, Errand.runFrom_await, hfound,
    hplain]
  cases replies.coordinator group with
  | error cause => rfl
  | ok coordinator =>
      simp only [Except.map, Except.mapError, Errand.runFrom_bind, Errand.runFrom_await]
      cases hreply : coordinator.fetch <;>
        simp [CoordinatorReplies.noting, CoordinatorReplies.coordinator, tell, hreply] <;> rfl

/-! ## The whole query -/

/-- The result of a progress query and the calls made for it, in order. Only a survey that finds
something leads to a fetch of marks, for the partitions found and in their order; every range is
then given the mark at its own place. -/
inductive Course (replies : ClusterReplies) (group topic : String) :
    Except Failure (List Progress) → List Exchange → Prop
  | surveyFailed {failure : Failure} (hranges : rangesFrom replies topic = .error failure) :
      Course replies group topic (.error failure) (surveyCalls replies topic)
  | nothingFound (hranges : rangesFrom replies topic = .ok []) :
      Course replies group topic (.ok []) (surveyCalls replies topic)
  | marksFailed {ranges : List Progress} {failure : Failure}
      (hranges : rangesFrom replies topic = .ok ranges) (hfound : ranges ≠ [])
      (hmarks : marksFrom replies group topic (ranges.map (·.partition)) = .error failure) :
      Course replies group topic (.error failure)
        (surveyCalls replies topic ++ markCalls replies group topic (ranges.map (·.partition)))
  | marked {ranges entries : List Progress} {marks : List Mark}
      (hranges : rangesFrom replies topic = .ok ranges) (hfound : ranges ≠ [])
      (hmarks : marksFrom replies group topic (ranges.map (·.partition)) = .ok marks)
      (hmarked : marks.length = ranges.length) (hlength : entries.length = ranges.length)
      (hentries : ∀ (place : Nat) range mark, ranges[place]? = some range →
        marks[place]? = some mark → entries[place]? = some { range with mark }) :
      Course replies group topic (.ok entries)
        (surveyCalls replies topic ++ markCalls replies group topic (ranges.map (·.partition)))

/-- Marks come one for each partition asked for. -/
theorem length_of_marksOf {response : OffsetFetch.Response} {group topic : String}
    {partitions : List Int32} {marks : List Mark}
    (hmarks : Commitment.marksOf response group topic partitions = .ok marks) :
    marks.length = partitions.length := by
  unfold Commitment.marksOf at hmarks
  split at hmarks
  · cases hmarks
  · have hall := congrArg List.length (mapM_eq_ok.mp hmarks)
    simpa using hall.symm

theorem length_of_marksFrom {replies : ClusterReplies} {group topic : String}
    {partitions : List Int32} {marks : List Mark}
    (hmarks : marksFrom replies group topic partitions = .ok marks) :
    marks.length = partitions.length := by
  have hplain : (replies.cluster : Cluster Unit).coordinator group () =
      ((replies.coordinator group).map CoordinatorReplies.coordinator, ()) := rfl
  unfold marksFrom Commitment.fetch at hmarks
  rw [Errand.runFrom_bind, Errand.runFrom_await, hplain] at hmarks
  cases hcoordinator : replies.coordinator group with
  | error cause => simp [hcoordinator, Except.map, Except.mapError] at hmarks
  | ok coordinator =>
      have hasked : (coordinator.coordinator : Coordinator Unit).fetch OffsetFetch.version
          (OffsetFetch.request group topic partitions) () = (coordinator.fetch, ()) := rfl
      simp only [hcoordinator, Except.map, Except.mapError, Errand.runFrom_bind,
        Errand.runFrom_await, hasked] at hmarks
      cases hreply : coordinator.fetch with
      | error cause => simp [hreply] at hmarks
      | ok response =>
          rw [hreply] at hmarks
          exact length_of_marksOf hmarks

theorem progressOn_noting (note : Exchange → σ → σ) (replies : ClusterReplies)
    (group topic : String) (state : σ) :
    ∃ result calls, Course replies group topic result calls ∧
      (Console.progressOn (replies.noting note) group topic).runFrom state =
        (result, noteAll note calls state) := by
  rw [Console.progressOn, Errand.runFrom_bind, survey_noting, ← rangesFrom_eq]
  cases hranges : rangesFrom replies topic with
  | error failure => exact ⟨_, _, .surveyFailed hranges, rfl⟩
  | ok ranges =>
      rcases ranges with _ | ⟨range, rest⟩
      · exact ⟨_, _, .nothingFound hranges, rfl⟩
      · have hfound : range :: rest ≠ [] := List.cons_ne_nil _ _
        simp only [List.isEmpty_cons, Bool.false_eq_true, if_false, Errand.runFrom_bind,
          fetch_noting, ← noteAll_append]
        cases hmarks : marksFrom replies group topic ((range :: rest).map (·.partition)) with
        | error failure => exact ⟨_, _, .marksFailed hranges hfound hmarks, rfl⟩
        | ok marks =>
            have hmarked : marks.length = (range :: rest).length := by
              rw [length_of_marksFrom hmarks, List.length_map]
            refine ⟨_, _, .marked hranges hfound hmarks hmarked ?_ ?_, rfl⟩
            · rw [List.length_zipWith, hmarked, Nat.min_self]
            · intro place range mark hrange hmark
              rw [List.getElem?_zipWith, hrange, hmark]

/-- A progress query over a connected cluster is the sequence of its two stages. What it makes of
them, and every call in between, is as the course of the query says; the links stay as they are. -/
theorem progress_course {replies : ClusterReplies} {links : Links (Recorded σ)}
    (hconnected : links.slots.clusterAccess = .connected (replies.cluster : Cluster σ).recorded)
    (group topic : String) (recorded : Recorded σ) :
    ∃ result calls, Course replies group topic result calls ∧
      (Console.progress group topic).runFrom links recorded =
        ((result, links), { recorded with log := recorded.log ++ calls }) := by
  obtain ⟨result, calls, hcourse, hrun⟩ := progressOn_noting noteInLog replies group topic recorded
  refine ⟨result, calls, hcourse, ?_⟩
  rw [Console.progress, LinkedErrand.runFrom_bind, Links.reachCluster_run, hconnected]
  simp only [LinkedErrand.runFrom_ofTask, recorded_eq_noting, hrun, noteAll_inLog]

/-- Three places for two partitions, which two brokers lead: one broker is asked about both places
of its partition at once, and the mark of the partition is given to each of them. -/
theorem progress_course_of_two_brokers :
    let answer (partition : Int32) (offset : Int64) : ListOffsets.Response :=
      { topics := [⟨"u", [{ partition, code := 3 }]⟩, ⟨"t", [{ partition, offsets := [offset] }]⟩] }
    let first : BrokerReplies :=
      { id := 4
        offsets := fun
          | .oldest => ⟨2, .ok (answer 1 10)⟩
          | .newest => ⟨0, .ok (answer 1 19)⟩ }
    let second : BrokerReplies :=
      { id := 6
        offsets := fun
          | .oldest => ⟨0, .ok (answer 0 30)⟩
          | .newest => ⟨1, .ok (answer 0 35)⟩ }
    let response : OffsetFetch.Response :=
      { topics := [⟨"t", [{ partition := 0, offset := 33, metadata := none },
          { partition := 1, offset := 12, metadata := some "m" }]⟩] }
    let coordinator : CoordinatorReplies :=
      { id := 9, fetch := .ok response, commit := .error noReply }
    let replies : ClusterReplies :=
      { partitions := fun _ => .ok [1, 0, 1]
        leader := fun _ partition => .ok (if partition = 1 then first else second)
        coordinator := fun _ => .ok coordinator }
    let links : Links (Recorded Unit) :=
      { settings := {}
        dialer :=
          { cluster := fun _ => pure (.error noReply), registry := fun _ => pure (.error noReply) }
        slots := { cluster := some replies.cluster.recorded } }
    let entries : List Progress :=
      [{ partition := 1, oldest := 10, newest := 19, mark := { offset := 12, metadata := "m" } },
        { partition := 0, oldest := 30, newest := 35, mark := { offset := 33, metadata := "" } },
        { partition := 1, oldest := 10, newest := 19, mark := { offset := 12, metadata := "m" } }]
    let calls : List Exchange :=
      [.partitions "t" (.ok [1, 0, 1]), .leader "t" 1 (.ok 4), .leader "t" 0 (.ok 6),
        .leader "t" 1 (.ok 4),
        .listOffsets 4 0 (ListOffsets.request "t" [1, 1] (-2)) ⟨2, .ok (answer 1 10)⟩,
        .listOffsets 4 0 (ListOffsets.request "t" [1, 1] (-1)) ⟨0, .ok (answer 1 19)⟩,
        .listOffsets 6 0 (ListOffsets.request "t" [0] (-2)) ⟨0, .ok (answer 0 30)⟩,
        .listOffsets 6 0 (ListOffsets.request "t" [0] (-1)) ⟨1, .ok (answer 0 35)⟩,
        .coordinator "g" (.ok 9),
        .offsetFetch 9 1 (OffsetFetch.request "g" "t" [1, 0, 1]) (.ok response)]
    links.slots.clusterAccess = .connected (replies.cluster : Cluster Unit).recorded ∧
      Course replies "g" "t" (.ok entries) calls ∧
      (Console.progress "g" "t").runFrom links { state := () } =
        ((.ok entries, links), { state := (), log := calls }) := by
  intro answer first second response coordinator replies links entries calls
  have hconnected : links.slots.clusterAccess =
      .connected (replies.cluster : Cluster Unit).recorded := rfl
  obtain ⟨result, made, hcourse, hrun⟩ := progress_course hconnected "g" "t" { state := () }
  have hranges : rangesFrom replies "t" =
      .ok (entries.map fun entry => { entry with mark := {} }) := by
    rw [rangesFrom_eq]
    rfl
  have hmarks : marksFrom replies "g" "t" [1, 0, 1] = .ok (entries.map (·.mark)) := rfl
  -- Of the four courses only the last one agrees with what the two stages come to.
  obtain ⟨rfl, rfl⟩ : result = .ok entries ∧ made = calls := by
    cases hcourse with
    | surveyFailed hfailed => cases hranges.symm.trans hfailed
    | nothingFound hnothing => cases hranges.symm.trans hnothing
    | marksFailed hfound _ hfailed =>
        obtain rfl := Except.ok.inj (hranges.symm.trans hfound)
        cases hmarks.symm.trans hfailed
    | @marked ranges found marks hfound _ hread _ hlength hentries =>
        obtain rfl := Except.ok.inj (hranges.symm.trans hfound)
        obtain rfl := Except.ok.inj (hmarks.symm.trans hread)
        have hsame : found = entries := by
          refine List.ext_getElem hlength fun place hplace hentry => ?_
          have hplaced := hentries place { entries[place] with mark := {} } entries[place].mark
            (by rw [List.getElem?_map, List.getElem?_eq_getElem hentry]; rfl)
            (by rw [List.getElem?_map, List.getElem?_eq_getElem hentry]; rfl)
          rw [List.getElem?_eq_getElem hplace] at hplaced
          exact Option.some.inj hplaced
        exact ⟨congrArg Except.ok hsame, rfl⟩
  exact ⟨hconnected, hcourse, hrun⟩

end ConsumerGroups.Canned
