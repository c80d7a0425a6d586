import ConsumerGroups.Canned
import ConsumerGroups.Proofs.Results

/-! # What a commit takes for an acknowledgement

A commit looks at the results that its response holds for the topic. It succeeds if there is one
and none of them has a code. It does not look for the partitions of its batch among them, so
that a success acknowledges the batch exactly if the response answers for all of it.
-/

namespace ConsumerGroups.Commitment

open Message

variable {σ : Type} {cluster : Cluster σ} {group topic : String} {batch : List Progress} {state : σ}
  {response : OffsetCommit.Response}

/-- The response that a commit of a batch gets from the coordinator of the group. -/
def Responds (cluster : Cluster σ) (group topic : String) (batch : List Progress) (state : σ)
    (response : OffsetCommit.Response) : Prop :=
  ∃ coordinator found reached,
    (cluster.coordinator group).run state = (.ok coordinator, found) ∧
    (coordinator.commit OffsetCommit.version (OffsetCommit.request group topic batch)).run found =
      (.ok response, reached)

/-- A response that holds, under an entry of the topic, a result for a partition without a code. -/
def Acknowledges (response : OffsetCommit.Response) (topic : String) (partition : Int32) : Prop :=
  ∃ entry ∈ response.topics, entry.name = topic ∧
    ∃ result ∈ entry.blocks, result.partition = partition ∧ result.code = 0

/-- A response that answers for a partition, whatever it answers. -/
def AnswersFor (response : OffsetCommit.Response) (topic : String) (partition : Int32) : Prop :=
  ∃ result ∈ response.resultsOf topic, result.partition = partition

theorem mem_resultsOf {result : OffsetCommit.Result} :
    result ∈ response.resultsOf topic ↔
      ∃ entry ∈ response.topics, entry.name = topic ∧ result ∈ entry.blocks := by
  simp only [OffsetCommit.Response.resultsOf, blocksOf, List.mem_flatMap, List.mem_filter,
    decide_eq_true_eq, and_assoc]

theorem acknowledged_eq_ok :
    acknowledged response topic = .ok () ↔
      response.resultsOf topic ≠ [] ∧ ∀ result ∈ response.resultsOf topic, result.code = 0 := by
  unfold acknowledged
  cases hrefused : (response.resultsOf topic).find? (·.code ≠ 0) with
  | some result =>
      have hmem := List.mem_of_find?_eq_some hrefused
      have hcode : result.code ≠ 0 := by simpa using List.find?_some hrefused
      simp only [hrefused, reduceCtorEq, false_iff, not_and]
      intro _ hzero
      exact hcode (hzero result hmem)
  | none =>
      have hzero : ∀ result ∈ response.resultsOf topic, result.code = 0 := by
        simpa using List.find?_eq_none.mp hrefused
      simp only [hrefused, List.isEmpty_iff]
      split
      · simp_all
      · exact iff_of_true rfl ⟨‹_›, hzero⟩

/-- A commit finds the coordinator, and sends one request unless its batch is empty. -/
theorem commit_run (cluster : Cluster σ) (group topic : String) (batch : List Progress)
    (state : σ) :
    (commit cluster group topic batch).runFrom state =
      match (cluster.coordinator group).run state with
      | (.error cause, found) => (.error (.connection .groupCoordinator cause), found)
      | (.ok coordinator, found) =>
        if batch.isEmpty then (.ok (), found)
        else
          match (coordinator.commit OffsetCommit.version
            (OffsetCommit.request group topic batch)).run found with
          | (.error cause, reached) => (.error (.connection .commitRequest cause), reached)
          | (.ok response, reached) => (acknowledged response topic, reached) := by
  rcases hfound : (cluster.coordinator group).run state with ⟨answer, found⟩
  have happlied : cluster.coordinator group state = (answer, found) := hfound
  rw [commit, Errand.runFrom_bind, Errand.runFrom_await, happlied]
  cases answer with
  | error cause => rfl
  | ok coordinator =>
      simp only [Except.mapError]
      split
      · rfl
      · rcases hsent : (coordinator.commit OffsetCommit.version
          (OffsetCommit.request group topic batch)).run found with ⟨answer, reached⟩
        have happlied : coordinator.commit OffsetCommit.version
          (OffsetCommit.request group topic batch) found = (answer, reached) := hsent
        rw [Errand.runFrom_bind, Errand.runFrom_await, happlied]
        cases answer <;> rfl

/-- What a commit that gets a response says is what the response says. -/
theorem commit_of_responds (hbatch : batch ≠ [])
    (hresponse : Responds cluster group topic batch state response) :
    ((commit cluster group topic batch).runFrom state).1 = acknowledged response topic := by
  obtain ⟨coordinator, found, reached, hfound, hsent⟩ := hresponse
  have hsome : batch.isEmpty = false := by simpa using hbatch
  rw [commit_run, hfound]
  simp only [hsome, Bool.false_eq_true, if_false, hsent]

/-- Of the results of a success none has a code, so that answering for a partition is
acknowledging it. -/
theorem acknowledges_iff_answersFor (hdone : acknowledged response topic = .ok ())
    (partition : Int32) :
    Acknowledges response topic partition ↔ AnswersFor response topic partition := by
  obtain ⟨-, hzero⟩ := acknowledged_eq_ok.mp hdone
  constructor
  · rintro ⟨entry, hentry, hname, result, hresult, hpartition, -⟩
    exact ⟨result, mem_resultsOf.mpr ⟨entry, hentry, hname, hresult⟩, hpartition⟩
  · rintro ⟨result, hresult, hpartition⟩
    obtain ⟨entry, hentry, hname, hblock⟩ := mem_resultsOf.mp hresult
    exact ⟨entry, hentry, hname, result, hblock, hpartition, hzero result hresult⟩

/-- A commit that gets a response succeeds if the response has results for the topic and all of
them are without a code. Such a success acknowledges the whole batch exactly if the response
answers for every record of it. -/
theorem commit_acknowledges_iff (hbatch : batch ≠ [])
    (hresponse : Responds cluster group topic batch state response) :
    let result := ((commit cluster group topic batch).runFrom state).1
    (result = .ok () ↔
      response.resultsOf topic ≠ [] ∧ ∀ result ∈ response.resultsOf topic, result.code = 0) ∧
    (result = .ok () →
      ((∀ record ∈ batch, Acknowledges response topic record.partition) ↔
        ∀ record ∈ batch, AnswersFor response topic record.partition)) := by
  intro result
  have hresult : result = acknowledged response topic := commit_of_responds hbatch hresponse
  rw [hresult]
  refine ⟨acknowledged_eq_ok, fun hdone => ?_⟩
  have hsame := acknowledges_iff_answersFor hdone
  exact forall₂_congr fun record _ => hsame record.partition

/-- A cluster whose coordinator gives one response to every commit, and no other answer. -/
def answering (response : OffsetCommit.Response) : Cluster Unit :=
  Canned.ClusterReplies.cluster
    { partitions := fun _ => .error Canned.noReply
      leader := fun _ _ => .error Canned.noReply
      coordinator := fun _ =>
        .ok { id := 1, fetch := .error Canned.noReply, commit := .ok response } }

theorem responds_answering (response : OffsetCommit.Response) (group topic : String)
    (batch : List Progress) : Responds (answering response) group topic batch () response :=
  ⟨_, (), (), rfl, rfl⟩

/-- A commit of three records, one of them given twice, that the response answers for out of order
and in two entries. The code under another topic does not count. -/
theorem commit_acknowledges_out_of_order :
    let response : OffsetCommit.Response :=
      { topics :=
          [⟨"t", [{ partition := 2 }]⟩, ⟨"u", [{ partition := 0, code := 3 }]⟩,
            ⟨"t", [{ partition := 1 }, { partition := 0 }]⟩] }
    let batch : List Progress :=
      [.toCommit 0 ⟨5, "a"⟩, .toCommit 1 ⟨6, "b"⟩, .toCommit 2 ⟨7, ""⟩, .toCommit 1 ⟨8, "c"⟩]
    batch ≠ [] ∧ Responds (answering response) "g" "t" batch () response ∧
      ((commit (answering response) "g" "t" batch).runFrom ()).1 = .ok () ∧
      ∀ record ∈ batch, Acknowledges response "t" record.partition := by
  intro response batch
  have hbatch : batch ≠ [] := List.cons_ne_nil _ _
  have hresponse := responds_answering response "g" "t" batch
  obtain ⟨hsuccess, hacknowledged⟩ := commit_acknowledges_iff hbatch hresponse
  have hdone := hsuccess.mpr ⟨by decide, by decide⟩
  refine ⟨hbatch, hresponse, hdone, (hacknowledged hdone).mpr ?_⟩
  unfold AnswersFor
  decide

/-- A response with a result for the first of two partitions. The commit of both succeeds, and
the second is not acknowledged. -/
theorem commit_succeeds_unacknowledged :
    let response : OffsetCommit.Response := { topics := [⟨"t", [{ partition := 0 }]⟩] }
    let batch := [Progress.toCommit 0 ⟨5, "a"⟩, Progress.toCommit 1 ⟨6, "b"⟩]
    Responds (answering response) "g" "t" batch () response ∧
      ((commit (answering response) "g" "t" batch).runFrom ()).1 = .ok () ∧
      ¬∀ record ∈ batch, Acknowledges response "t" record.partition := by
  intro response batch
  refine ⟨responds_answering response "g" "t" batch, rfl, ?_⟩
  intro hall
  obtain ⟨entry, hentry, -, result, hresult, hpartition, -⟩ :=
    hall (Progress.toCommit 1 ⟨6, "b"⟩) (by simp [batch])
  obtain rfl := List.mem_singleton.mp hentry
  obtain rfl := List.mem_singleton.mp hresult
  exact absurd hpartition (by decide)

end ConsumerGroups.Commitment
