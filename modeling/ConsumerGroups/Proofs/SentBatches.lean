import ConsumerGroups.Proofs.Acknowledgement
import ConsumerGroups.Proofs.Recording

/-! # What a commit sends, and what it makes of the answer

A commit asks for the coordinator of the group. An empty batch ends there. Any other is sent in one
request, with an entry for each record, and the first result of the topic that has a code is the
failure that is reported. Each way to end is stated with the exchanges that were made on the way.
-/

namespace ConsumerGroups.Commitment

open Message

variable {σ : Type}

/-! ## The request -/

/-- An entry that commits the mark of a record. The ends of the record's log are no part of it. -/
structure Marks (record : Progress) (entry : OffsetCommit.Entry) : Prop where
  partition : entry.partition = record.partition
  offset : entry.offset = record.mark.offset
  metadata : entry.metadata = some record.mark.metadata
  timestamp : entry.timestamp = -1
  leaderEpoch : entry.leaderEpoch = -1

/-- A request that carries a batch outside of any generation, with one entry for each record and in
their order. -/
structure Carries (request : OffsetCommit.Request) (group topic : String) (batch : List Progress) :
    Prop where
  group : request.group = group
  generation : request.generation = -1
  member : request.member = ""
  instanceId : request.instanceId = none
  retention : request.retentionMs = -1
  topics : ∃ entries, request.topics = [⟨topic, entries⟩] ∧ List.Forall₂ Marks batch entries

theorem marks_iff {record : Progress} {entry : OffsetCommit.Entry} :
    Marks record entry ↔ .ofProgress record = entry := by
  constructor
  · rintro ⟨hpartition, hoffset, hmetadata, htimestamp, hepoch⟩
    obtain ⟨partition, offset, epoch, timestamp, metadata⟩ := entry
    subst hpartition hoffset hmetadata htimestamp hepoch
    rfl
  · rintro rfl
    exact ⟨rfl, rfl, rfl, rfl, rfl⟩

/-- One request carries a batch, and no other. -/
theorem carries_iff {request : OffsetCommit.Request} {group topic : String}
    {batch : List Progress} :
    Carries request group topic batch ↔ request = OffsetCommit.request group topic batch := by
  have hentries (entries : List OffsetCommit.Entry) : List.Forall₂ Marks batch entries ↔
      batch.map .ofProgress = entries := by
    have hmarks : Marks = fun record entry => .ofProgress record = entry :=
      funext fun _ => funext fun _ => propext marks_iff
    rw [hmarks, ← List.forall₂_eq_eq_eq, List.forall₂_map_left_iff]
  constructor
  · rintro ⟨hgroup, hgeneration, hmember, hinstance, hretention, entries, htopics, hmarks⟩
    obtain rfl := (hentries entries).mp hmarks
    obtain ⟨group', generation, member, instanceId, retention, topics⟩ := request
    subst hgroup hgeneration hmember hinstance hretention htopics
    rfl
  · rintro rfl
    exact ⟨rfl, rfl, rfl, rfl, rfl, _, rfl, (hentries _).mpr rfl⟩

/-! ## The answer -/

/-- What an answer to the request comes to. The results that count are all those under entries of
the topic, in the order of the response. -/
inductive Judged (topic : String) : Reply OffsetCommit.Response → Except Failure Unit → Prop
  | unanswered {cause : Cause} :
      Judged topic (.error cause) (.error (.connection .commitRequest cause))
  /-- The first result with a code is reported. -/
  | refused {response : OffsetCommit.Response} {passed later : List OffsetCommit.Result}
      {result : OffsetCommit.Result}
      (hresults : response.resultsOf topic = passed ++ result :: later)
      (hpassed : ∀ other ∈ passed, other.code = 0) (hcode : result.code ≠ 0) :
      Judged topic (.ok response) (.error (.remote (.commitRefused result.partition) result.code))
  | silent {response : OffsetCommit.Response} (hresults : response.resultsOf topic = []) :
      Judged topic (.ok response) (.error (.protocol (.commitUnanswered topic)))
  | accepted {response : OffsetCommit.Response} (hresults : response.resultsOf topic ≠ [])
      (hcodes : ∀ result ∈ response.resultsOf topic, result.code = 0) :
      Judged topic (.ok response) (.ok ())

/-- A commit's result, from the answer to its request. -/
def judge (topic : String) : Reply OffsetCommit.Response → Except Failure Unit
  | .error cause => .error (.connection .commitRequest cause)
  | .ok response => acknowledged response topic

theorem Judged.judge_eq {topic : String} {answer : Reply OffsetCommit.Response}
    {result : Except Failure Unit} (hjudged : Judged topic answer result) :
    judge topic answer = result := by
  cases hjudged with
  | unanswered => rfl
  | @refused response passed later result hresults hpassed hcode =>
      have hfirst : (response.resultsOf topic).find? (·.code ≠ 0) = some result := by
        rw [List.find?_eq_some_iff_append]
        exact ⟨by simpa using hcode, passed, later, hresults, by simpa using hpassed⟩
      simp only [judge, acknowledged, hfirst]
  | silent hresults => simp [judge, acknowledged, hresults]
  | accepted hresults hcodes => exact acknowledged_eq_ok.mpr ⟨hresults, hcodes⟩

/-- Every answer comes to something. -/
theorem exists_judged (topic : String) (answer : Reply OffsetCommit.Response) :
    ∃ result, Judged topic answer result := by
  cases answer with
  | error cause => exact ⟨_, .unanswered⟩
  | ok response =>
      cases hrefused : (response.resultsOf topic).find? (·.code ≠ 0) with
      | some result =>
          obtain ⟨hcode, passed, later, hresults, hpassed⟩ :=
            List.find?_eq_some_iff_append.mp hrefused
          exact ⟨_, .refused hresults (by simpa using hpassed) (by simpa using hcode)⟩
      | none =>
          have hcodes : ∀ result ∈ response.resultsOf topic, result.code = 0 := by
            simpa using List.find?_eq_none.mp hrefused
          by_cases hresults : response.resultsOf topic = []
          · exact ⟨_, .silent hresults⟩
          · exact ⟨_, .accepted hresults hcodes⟩

/-! ## Runs -/

section Runs

variable (cluster : Cluster σ) (group topic : String) (batch : List Progress)

/-- How a commit can go: its result, the exchanges that it makes, and the state that it leaves
behind. -/
inductive CommitCourse (start : σ) : Except Failure Unit → List Exchange → σ → Prop
  | unresolved {cause : Cause} {found : σ}
      (hcoordinator : (cluster.coordinator group).run start = (.error cause, found)) :
      CommitCourse start (.error (.connection .groupCoordinator cause))
        [.coordinator group (.error cause)] found
  /-- Nothing to commit, and nothing is sent. -/
  | nothing {coordinator : Coordinator σ} {found : σ}
      (hcoordinator : (cluster.coordinator group).run start = (.ok coordinator, found))
      (hbatch : batch = []) :
      CommitCourse start (.ok ()) [.coordinator group (.ok coordinator.id)] found
  | sent {coordinator : Coordinator σ} {request : OffsetCommit.Request}
      {answer : Reply OffsetCommit.Response} {result : Except Failure Unit} {found reached : σ}
      (hcoordinator : (cluster.coordinator group).run start = (.ok coordinator, found))
      (hbatch : batch ≠ []) (hrequest : Carries request group topic batch)
      (hanswer : (coordinator.commit OffsetCommit.version request).run found = (answer, reached))
      (hjudged : Judged topic answer result) :
      CommitCourse start result
        [.coordinator group (.ok coordinator.id),
          .offsetCommit coordinator.id OffsetCommit.version request answer] reached

variable (start : σ) (before : List Exchange)

/-- What a commit does over collaborators whose calls are recorded. -/
theorem commit_recorded_run :
    (commit cluster.recorded group topic batch).runFrom ⟨start, before⟩ =
      match (cluster.coordinator group).run start with
      | (.error cause, found) =>
        (.error (.connection .groupCoordinator cause),
          ⟨found, before ++ [.coordinator group (.error cause)]⟩)
      | (.ok coordinator, found) =>
        if batch.isEmpty then
          (.ok (), ⟨found, before ++ [.coordinator group (.ok coordinator.id)]⟩)
        else
          let request := OffsetCommit.request group topic batch
          let (answer, reached) := (coordinator.commit OffsetCommit.version request).run found
          (judge topic answer, ⟨reached, before ++ [.coordinator group (.ok coordinator.id)] ++
            [.offsetCommit coordinator.id OffsetCommit.version request answer]⟩) := by
  have hasked : (cluster.recorded.coordinator group).run ⟨start, before⟩ =
      (((cluster.coordinator group).run start).1.map Coordinator.recorded,
        ⟨((cluster.coordinator group).run start).2, before ++
          [.coordinator group (((cluster.coordinator group).run start).1.map (·.id))]⟩) := rfl
  rw [commit_run, hasked]
  rcases (cluster.coordinator group).run start with ⟨cause | coordinator, found⟩
  · rfl
  · simp only [Except.map]
    split
    · rfl
    · have hsent (request : OffsetCommit.Request) (log : List Exchange) :
          (coordinator.recorded.commit OffsetCommit.version request).run ⟨found, log⟩ =
            (((coordinator.commit OffsetCommit.version request).run found).1,
              ⟨((coordinator.commit OffsetCommit.version request).run found).2, log ++
                [.offsetCommit coordinator.id OffsetCommit.version request
                  ((coordinator.commit OffsetCommit.version request).run found).1]⟩) := rfl
      rw [hsent]
      rcases (coordinator.commit OffsetCommit.version
        (OffsetCommit.request group topic batch)).run found with ⟨cause | response, reached⟩ <;> rfl

variable {cluster group topic batch start} {result : Except Failure Unit}

theorem CommitCourse.run {exchanges : List Exchange} {reached : σ}
    (hcourse : CommitCourse cluster group topic batch start result exchanges reached) :
    (commit cluster.recorded group topic batch).runFrom ⟨start, before⟩ =
      (result, ⟨reached, before ++ exchanges⟩) := by
  cases hcourse with
  | unresolved hcoordinator => simp only [commit_recorded_run, hcoordinator]
  | nothing hcoordinator hbatch => simp [commit_recorded_run, hcoordinator, hbatch]
  | sent hcoordinator hbatch hrequest hanswer hjudged =>
      obtain rfl := carries_iff.mp hrequest
      have hsome : batch.isEmpty = false := by simpa using hbatch
      simp [commit_recorded_run, hcoordinator, hsome, hanswer, hjudged.judge_eq]

variable (cluster group topic batch start) in
/-- Every commit has a course. -/
theorem exists_commitCourse : ∃ result exchanges reached,
    CommitCourse cluster group topic batch start result exchanges reached := by
  rcases hcoordinator : (cluster.coordinator group).run start with ⟨cause | coordinator, found⟩
  · exact ⟨_, _, _, .unresolved hcoordinator⟩
  · by_cases hbatch : batch = []
    · exact ⟨_, _, _, .nothing hcoordinator hbatch⟩
    · obtain ⟨result, hjudged⟩ := exists_judged topic ((coordinator.commit OffsetCommit.version
        (OffsetCommit.request group topic batch)).run found).1
      exact ⟨_, _, _, .sent hcoordinator hbatch (carries_iff.mpr rfl) rfl hjudged⟩

theorem commit_recorded_iff {recorded : Recorded σ} :
    (commit cluster.recorded group topic batch).runFrom ⟨start, before⟩ = (result, recorded) ↔
      ∃ exchanges, recorded.log = before ++ exchanges ∧
        CommitCourse cluster group topic batch start result exchanges recorded.state := by
  constructor
  · intro hrun
    obtain ⟨result', exchanges, reached, hcourse⟩ :=
      exists_commitCourse cluster group topic batch start
    rw [hcourse.run before] at hrun
    cases hrun
    exact ⟨exchanges, rfl, hcourse⟩
  · rintro ⟨exchanges, hlog, hcourse⟩
    rw [hcourse.run before, ← hlog]

theorem commit_iff {reached : σ} :
    (commit cluster group topic batch).runFrom start = (result, reached) ↔
      ∃ exchanges, CommitCourse cluster group topic batch start result exchanges reached := by
  -- The log is no part of what a commit does to the collaborators, or of its result.
  obtain ⟨hresult, hstate⟩ := mirrors_commit cluster group topic batch ⟨start, []⟩
  rw [except_map_id] at hresult
  have hsame : (commit cluster group topic batch).runFrom start =
      (((commit cluster.recorded group topic batch).runFrom ⟨start, []⟩).1,
        ((commit cluster.recorded group topic batch).runFrom ⟨start, []⟩).2.state) :=
    Prod.ext hresult.symm hstate.symm
  rw [hsame]
  constructor
  · intro hrun
    obtain ⟨result', exchanges, reached', hcourse⟩ :=
      exists_commitCourse cluster group topic batch start
    rw [hcourse.run []] at hrun
    cases hrun
    exact ⟨exchanges, hcourse⟩
  · rintro ⟨exchanges, hcourse⟩
    rw [hcourse.run []]

/-- A success has no result with a code in any response. -/
theorem CommitCourse.codes_eq_zero {exchanges : List Exchange} {reached : σ}
    (hcourse : CommitCourse cluster group topic batch start (.ok ()) exchanges reached)
    {id : Int32} {version : Int16} {request : OffsetCommit.Request}
    {response : OffsetCommit.Response}
    (hanswer : .offsetCommit id version request (.ok response) ∈ exchanges) :
    ∀ result ∈ response.resultsOf topic, result.code = 0 := by
  cases hcourse with
  | nothing => simp at hanswer
  | sent hcoordinator hbatch hrequest hrun hjudged =>
      obtain ⟨-, -, -, hresponse⟩ : _ ∧ _ ∧ _ ∧ Except.ok response = _ := by simpa using hanswer
      subst hresponse
      cases hjudged with
      | accepted hresults hcodes => exact hcodes

end Runs

/-- A commit takes its course and no other. It asks for the coordinator. An empty batch succeeds
then, with nothing sent. Any other goes out in one request, which carries for each record, in order,
its partition and mark and nothing else of it. Of the results that the response holds under the
topic, in the order of the response, the first with a code is the failure. Without any result the
commit fails, and otherwise it succeeds, so that no success hides a result with a code. -/
theorem commit_iff_course (cluster : Cluster σ) (group topic : String) (batch : List Progress) :
    (∀ start result reached,
      (commit cluster group topic batch).runFrom start = (result, reached) ↔
        ∃ exchanges, CommitCourse cluster group topic batch start result exchanges reached) ∧
    (∀ start before result recorded,
      (commit cluster.recorded group topic batch).runFrom ⟨start, before⟩ = (result, recorded) ↔
        ∃ exchanges, recorded.log = before ++ exchanges ∧
          CommitCourse cluster group topic batch start result exchanges recorded.state) ∧
    commit cluster group topic
        (batch.map fun record => .toCommit record.partition record.mark) =
      commit cluster group topic batch ∧
    ∀ start exchanges reached id version request response,
      CommitCourse cluster group topic batch start (.ok ()) exchanges reached →
      .offsetCommit id version request (.ok response) ∈ exchanges →
      ∀ result ∈ response.resultsOf topic, result.code = 0 := by
  refine ⟨fun _ _ _ => commit_iff, fun _ before _ _ => commit_recorded_iff before, ?_,
    fun _ _ _ _ _ _ _ hcourse hanswer => hcourse.codes_eq_zero hanswer⟩
  have hrequest : OffsetCommit.request group topic
      (batch.map fun record => .toCommit record.partition record.mark) =
      OffsetCommit.request group topic batch := by
    rw [OffsetCommit.request, OffsetCommit.request, List.map_map]
    rfl
  unfold commit
  rw [hrequest, List.isEmpty_map]

/-- Two records of one partition, and a response with the topic in two entries. A code under another
topic comes first and does not count, nor does the code that comes last. -/
theorem commit_of_split_topic :
    let response : OffsetCommit.Response :=
      { topics :=
          [⟨"u", [{ partition := 0, code := 9 }]⟩,
            ⟨"t", [{ partition := 0 }]⟩,
            ⟨"t", [{ partition := 1, code := 25 }, { partition := 0, code := 22 }]⟩] }
    let batch : List Progress :=
      [{ partition := 0, oldest := 3, newest := 8, mark := ⟨5, "a"⟩ }, .toCommit 0 ⟨6, "b"⟩,
        .toCommit 1 ⟨7, ""⟩]
    let request : OffsetCommit.Request :=
      { group := "g"
        topics :=
          [⟨"t", [{ partition := 0, offset := 5, metadata := some "a" },
            { partition := 0, offset := 6, metadata := some "b" },
            { partition := 1, offset := 7, metadata := some "" }]⟩] }
    CommitCourse (answering response) "g" "t" batch () (.error (.remote (.commitRefused 1) 25))
      [.coordinator "g" (.ok 1), .offsetCommit 1 OffsetCommit.version request (.ok response)]
      () := by
  intro response batch request
  have hexact := (commit_iff_course (answering response) "g" "t" batch).2.1 () []
    (.error (.remote (.commitRefused 1) 25))
    ⟨(), [.coordinator "g" (.ok 1),
      .offsetCommit 1 OffsetCommit.version request (.ok response)]⟩
  obtain ⟨exchanges, hlog, hcourse⟩ := hexact.mp rfl
  obtain rfl : _ = exchanges := hlog
  exact hcourse

end ConsumerGroups.Commitment
