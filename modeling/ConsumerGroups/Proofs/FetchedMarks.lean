import ConsumerGroups.Canned
import ConsumerGroups.Proofs.Results

/-! # The marks that a fetch makes of its response

A fetch looks for one partition after another, in the order in which they were asked for. Of the
blocks that the response holds under the topic, the first for a partition counts; a partition
without a block, or whose block has a code, ends the fetch. A code of the response as a whole comes
before all blocks. Whatever else the response holds does not matter.
-/

namespace ConsumerGroups.Commitment

open Message Results

variable {σ τ : Type}

/-! ## Blocks -/

section Blocks

variable (response : OffsetFetch.Response) (topic : String) (partition : Int32)

/-- The first block for a partition, of those under entries of the topic. -/
def FirstBlock (block : OffsetFetch.Block) : Prop :=
  block.partition = partition ∧ ∃ earlier later,
    blocksOf topic response.topics = earlier ++ block :: later ∧
      ∀ other ∈ earlier, other.partition ≠ partition

/-- The first block for a partition has no code and holds the mark. Missing metadata reads as
none. -/
def Holds (mark : Mark) : Prop :=
  ∃ block, FirstBlock response topic partition block ∧ block.code = 0 ∧
    mark = { offset := block.offset, metadata := block.metadata.getD "" }

/-- Why a response holds no mark for a partition. -/
inductive Lacks : Failure → Prop
  | absent (hnone : ∀ block ∈ blocksOf topic response.topics, block.partition ≠ partition) :
      Lacks (.protocol (.markAbsent partition))
  | refused {block : OffsetFetch.Block} (hfirst : FirstBlock response topic partition block)
      (hcode : block.code ≠ 0) : Lacks (.remote (.markRefused partition) block.code)

variable {response topic partition}

theorem firstBlock_iff {block : OffsetFetch.Block} :
    FirstBlock response topic partition block ↔ response.blockOf? topic partition = some block := by
  unfold FirstBlock OffsetFetch.Response.blockOf? Message.blockOf?
  rw [List.find?_eq_some_iff_append]
  simp

theorem blockOf?_eq_none :
    response.blockOf? topic partition = none ↔
      ∀ block ∈ blocksOf topic response.topics, block.partition ≠ partition := by
  unfold OffsetFetch.Response.blockOf? Message.blockOf?
  rw [List.find?_eq_none]
  simp

theorem markOf_eq_ok {mark : Mark} :
    markOf response topic partition = .ok mark ↔ Holds response topic partition mark := by
  unfold markOf Holds
  simp only [firstBlock_iff]
  cases response.blockOf? topic partition with
  | none => simp
  | some block => by_cases hcode : block.code = 0 <;> simp [hcode, eq_comm]

theorem markOf_eq_error {failure : Failure} :
    markOf response topic partition = .error failure ↔ Lacks response topic partition failure := by
  constructor
  · intro hfailure
    unfold markOf at hfailure
    split at hfailure
    next hnone =>
      cases hfailure
      exact .absent (blockOf?_eq_none.mp hnone)
    next block hblock =>
      split at hfailure
      next hcode =>
        cases hfailure
        exact .refused (firstBlock_iff.mpr hblock) hcode
      next => cases hfailure
  · intro hlacks
    cases hlacks with
    | absent hnone => simp [markOf, blockOf?_eq_none.mpr hnone]
    | refused hfirst hcode => simp [markOf, firstBlock_iff.mp hfirst, hcode]

end Blocks

/-! ## Responses -/

section Responses

variable {response others : OffsetFetch.Response} {group topic : String} {partitions : List Int32}

/-- The marks are those that the response holds for the partitions, one for each and in order. -/
theorem marksOf_eq_ok {marks : List Mark} :
    marksOf response group topic partitions = .ok marks ↔
      response.code = 0 ∧ List.Forall₂ (Holds response topic) partitions marks := by
  unfold marksOf
  by_cases hcode : response.code = 0
  · have hall : List.Forall₂ (Holds response topic) partitions marks ↔
        partitions.map (markOf response topic) = marks.map .ok := by
      rw [← List.forall₂_eq_eq_eq, List.forall₂_map_left_iff, List.forall₂_map_right_iff]
      simp only [markOf_eq_ok]
    rw [hall, ← mapM_eq_ok]
    simp [hcode]
  · simp [hcode]

/-- The blocks that were asked for are all that is looked at. -/
theorem marksOf_congr (hcode : response.code = others.code)
    (hblocks : (blocksOf topic response.topics).filter (·.partition ∈ partitions) =
      (blocksOf topic others.topics).filter (·.partition ∈ partitions)) :
    marksOf response group topic partitions = marksOf others group topic partitions := by
  have hsame : ∀ partition ∈ partitions,
      markOf response topic partition = markOf others topic partition := by
    intro partition hpartition
    have hfind (blocks : List OffsetFetch.Block) : blocks.find? (·.partition = partition) =
        (blocks.filter (·.partition ∈ partitions)).find? (·.partition = partition) := by
      rw [List.find?_filter]
      congr 1
      funext block
      by_cases hblock : block.partition = partition <;> simp [hblock, hpartition]
    unfold markOf OffsetFetch.Response.blockOf? Message.blockOf?
    rw [hfind (blocksOf topic response.topics), hblocks, ← hfind]
  have hread : partitions.mapM (markOf response topic) = partitions.mapM (markOf others topic) := by
    have hmap := congrArg (List.mapM id) (List.map_congr_left hsame)
    simpa only [List.mapM_map, Function.id_comp] using hmap
  unfold marksOf
  rw [hcode, hread]

end Responses

/-! ## Runs -/

section Runs

variable (cluster : Cluster σ) (group topic : String) (partitions : List Int32)

/-- The response that a fetch of marks gets from the coordinator of the group. -/
def Answered (start : σ) (response : OffsetFetch.Response) (reached : σ) : Prop :=
  ∃ coordinator found,
    (cluster.coordinator group).run start = (.ok coordinator, found) ∧
    (coordinator.fetch OffsetFetch.version (OffsetFetch.request group topic partitions)).run found =
      (.ok response, reached)

/-- How a fetch can end: its result, and the state that it leaves behind. -/
inductive FetchCourse (start : σ) : Except Failure (List Mark) → σ → Prop
  | unresolved {cause : Cause} {found : σ}
      (hcoordinator : (cluster.coordinator group).run start = (.error cause, found)) :
      FetchCourse start (.error (.connection .groupCoordinator cause)) found
  | unanswered {coordinator : Coordinator σ} {cause : Cause} {found reached : σ}
      (hcoordinator : (cluster.coordinator group).run start = (.ok coordinator, found))
      (hrequest : (coordinator.fetch OffsetFetch.version
        (OffsetFetch.request group topic partitions)).run found = (.error cause, reached)) :
      FetchCourse start (.error (.connection .committedMarks cause)) reached
  | refused {response : OffsetFetch.Response} {reached : σ}
      (hanswered : Answered cluster group topic partitions start response reached)
      (hcode : response.code ≠ 0) :
      FetchCourse start (.error (.remote (.committedMarksOf group) response.code)) reached
  /-- The first partition for which there is no mark ends the fetch. -/
  | stopped {response : OffsetFetch.Response} {reached : σ} {passed later : List Int32}
      {partition : Int32} {failure : Failure}
      (hanswered : Answered cluster group topic partitions start response reached)
      (hcode : response.code = 0) (hpartitions : partitions = passed ++ partition :: later)
      (hpassed : ∀ other ∈ passed, ∃ mark, Holds response topic other mark)
      (hlacks : Lacks response topic partition failure) :
      FetchCourse start (.error failure) reached
  | complete {response : OffsetFetch.Response} {reached : σ} {marks : List Mark}
      (hanswered : Answered cluster group topic partitions start response reached)
      (hcode : response.code = 0)
      (hmarks : List.Forall₂ (Holds response topic) partitions marks) :
      FetchCourse start (.ok marks) reached

variable {cluster group topic partitions} {start reached : σ} {response : OffsetFetch.Response}

variable (cluster group topic partitions start) in
/-- A fetch finds the coordinator, sends one request, and reads the response. -/
theorem fetch_run :
    (fetch cluster group topic partitions).runFrom start =
      match (cluster.coordinator group).run start with
      | (.error cause, found) => (.error (.connection .groupCoordinator cause), found)
      | (.ok coordinator, found) =>
        match (coordinator.fetch OffsetFetch.version
          (OffsetFetch.request group topic partitions)).run found with
        | (.error cause, reached) => (.error (.connection .committedMarks cause), reached)
        | (.ok response, reached) => (marksOf response group topic partitions, reached) := by
  rw [fetch, Errand.runFrom_await_bind]
  rcases (cluster.coordinator group).run start with ⟨cause | coordinator, found⟩
  · rfl
  · simp only [Errand.runFrom_await_bind, Errand.runFrom_ofExcept]
    rcases (coordinator.fetch OffsetFetch.version
      (OffsetFetch.request group topic partitions)).run found with ⟨cause | response, reached⟩ <;>
      rfl

/-- What a fetch that gets a response comes to is what it makes of the response. -/
theorem Answered.marks
    (hanswered : Answered cluster group topic partitions start response reached) :
    (fetch cluster group topic partitions).runFrom start =
      (marksOf response group topic partitions, reached) := by
  obtain ⟨coordinator, found, hcoordinator, hrequest⟩ := hanswered
  simp only [fetch_run, hcoordinator, hrequest]

/-- Every course is what the fetch does. -/
theorem FetchCourse.run {result : Except Failure (List Mark)}
    (hcourse : FetchCourse cluster group topic partitions start result reached) :
    (fetch cluster group topic partitions).runFrom start = (result, reached) := by
  cases hcourse with
  | unresolved hcoordinator => simp only [fetch_run, hcoordinator]
  | unanswered hcoordinator hrequest => simp only [fetch_run, hcoordinator, hrequest]
  | refused hanswered hcode =>
      rw [hanswered.marks, marksOf, if_pos hcode]
  | @stopped response _ passed later partition failure hanswered hcode hpartitions hpassed hlacks =>
      have hmarks : partitions.mapM (markOf response topic) = .error failure := by
        simp only [← markOf_eq_ok] at hpassed
        exact mapM_eq_error_iff.mpr
          ⟨passed, partition, later, hpartitions, hpassed, markOf_eq_error.mpr hlacks⟩
      rw [hanswered.marks, marksOf, if_neg (not_not.mpr hcode), hmarks]
  | complete hanswered hcode hmarks =>
      rw [hanswered.marks, marksOf_eq_ok.mpr ⟨hcode, hmarks⟩]

/-- A fetch that gets a response has a course. -/
theorem Answered.exists_course
    (hanswered : Answered cluster group topic partitions start response reached) :
    ∃ result, FetchCourse cluster group topic partitions start result reached := by
  by_cases hcode : response.code = 0
  · cases hmarks : partitions.mapM (markOf response topic) with
    | ok marks =>
        have hall : marksOf response group topic partitions = .ok marks := by
          rw [marksOf, if_neg (not_not.mpr hcode), hmarks]
        exact ⟨_, .complete hanswered hcode (marksOf_eq_ok.mp hall).2⟩
    | error failure =>
        obtain ⟨passed, partition, later, hpartitions, hpassed, hfailure⟩ :=
          mapM_eq_error_iff.mp hmarks
        simp only [markOf_eq_ok] at hpassed
        exact ⟨_, .stopped hanswered hcode hpartitions hpassed (markOf_eq_error.mp hfailure)⟩
  · exact ⟨_, .refused hanswered hcode⟩

variable (cluster group topic partitions start) in
/-- Every fetch has a course. -/
theorem exists_fetchCourse :
    ∃ result reached, FetchCourse cluster group topic partitions start result reached := by
  rcases hcoordinator : (cluster.coordinator group).run start with ⟨cause | coordinator, found⟩
  · exact ⟨_, _, .unresolved hcoordinator⟩
  · rcases hrequest : (coordinator.fetch OffsetFetch.version
      (OffsetFetch.request group topic partitions)).run found with ⟨cause | response, reached⟩
    · exact ⟨_, _, .unanswered hcoordinator hrequest⟩
    · have hanswered : Answered cluster group topic partitions start response reached :=
        ⟨coordinator, found, hcoordinator, hrequest⟩
      obtain ⟨result, hcourse⟩ := hanswered.exists_course
      exact ⟨result, reached, hcourse⟩

end Runs

/-- A fetch of marks takes its course and no other: it succeeds exactly if the coordinator is found
and answers without a code, and for every partition that was asked for the first block under the
topic is there and has no code. Then the marks are those of these blocks, one for each partition and
in order. Otherwise a code of the response comes first, and then the first partition, in the order
of the request, whose block is missing or has a code. Of two responses with the same code and the
same blocks for the partitions that were asked for, fetches make the same. -/
theorem fetch_iff_course (cluster : Cluster σ) (group topic : String) (partitions : List Int32)
    (start : σ) :
    (∀ result reached, (fetch cluster group topic partitions).runFrom start = (result, reached) ↔
      FetchCourse cluster group topic partitions start result reached) ∧
    ∀ {τ : Type} (other : Cluster τ) (origin : τ) (response others : OffsetFetch.Response)
      (reached : σ) (final : τ),
        Answered cluster group topic partitions start response reached →
        Answered other group topic partitions origin others final →
        response.code = others.code →
        (blocksOf topic response.topics).filter (·.partition ∈ partitions) =
          (blocksOf topic others.topics).filter (·.partition ∈ partitions) →
        ((fetch other group topic partitions).runFrom origin).1 =
          ((fetch cluster group topic partitions).runFrom start).1 := by
  refine ⟨fun result reached => ⟨fun hrun => ?_, FetchCourse.run⟩, ?_⟩
  · obtain ⟨result', reached', hcourse⟩ := exists_fetchCourse cluster group topic partitions start
    rw [hcourse.run] at hrun
    cases hrun
    exact hcourse
  · intro τ other origin response others reached final hanswered hothers hcode hblocks
    rw [hanswered.marks, hothers.marks]
    exact (marksOf_congr hcode hblocks).symm

/-- A topic in two entries, a partition asked for twice, and codes in blocks that do not count: one
of another topic, one of a partition that was not asked for, and one behind the first block. -/
theorem fetch_from_two_entries :
    let replying (response : OffsetFetch.Response) : Cluster Unit :=
      Canned.ClusterReplies.cluster
        { partitions := fun _ => .error Canned.noReply
          leader := fun _ _ => .error Canned.noReply
          coordinator := fun _ =>
            .ok { id := 1, fetch := .ok response, commit := .error Canned.noReply } }
    let response : OffsetFetch.Response :=
      { topics :=
          [⟨"u", [{ partition := 0, offset := 1, code := 5 }]⟩,
            ⟨"t", [{ partition := 1, offset := 7, metadata := none }]⟩,
            ⟨"t", [{ partition := 0, offset := 4, metadata := some "a" },
              { partition := 2, offset := 0, code := 6 },
              { partition := 1, offset := 9, code := 3 }]⟩] }
    let others : OffsetFetch.Response :=
      { topics :=
          [⟨"t", [{ partition := 1, offset := 7, metadata := none },
            { partition := 0, offset := 4, metadata := some "a" },
            { partition := 1, offset := 9, code := 3 }]⟩] }
    let marks : List Mark := [⟨4, "a"⟩, ⟨7, ""⟩, ⟨4, "a"⟩]
    FetchCourse (replying response) "g" "t" [0, 1, 0] () (.ok marks) () ∧
      ((fetch (replying others) "g" "t" [0, 1, 0]).runFrom ()).1 = .ok marks := by
  intro replying response others marks
  have hexact := fetch_iff_course (replying response) "g" "t" [0, 1, 0] ()
  have hrun : (fetch (replying response) "g" "t" [0, 1, 0]).runFrom () = (.ok marks, ()) := rfl
  have hsame := hexact.2 (replying others) () response others () () ⟨_, (), rfl, rfl⟩
    ⟨_, (), rfl, rfl⟩ rfl (by decide)
  exact ⟨(hexact.1 _ _).mp hrun, by rw [hsame, hrun]⟩

end ConsumerGroups.Commitment
