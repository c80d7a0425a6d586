import ConsumerGroups.Proofs.Simulated.Storing

/-! # Exchanges with a simulated broker

What is read from the answer to a request is what the broker knows about the partitions that it was
asked about. A partition that is named several times has several blocks in an answer, but these are
alike, so that it does not matter which of them is found.
-/

namespace ConsumerGroups.Simulated

open Message Results

/-- A request about some partitions of a topic asks about a place. -/
def Asks (topic : String) (partitions : List Int32) (place : TopicPartition) : Prop :=
  place.topic = topic ∧ place.partition ∈ partitions

instance (topic : String) (partitions : List Int32) (place : TopicPartition) :
    Decidable (Asks topic partitions place) :=
  inferInstanceAs (Decidable (_ ∧ _))

/-- The block found for a place is the answer about its partition, if a request asks about it. -/
theorem blockOf?_asked {β : Type} {partitionOf : β → Int32} {answer : Int32 → Option β}
    (hanswer : ∀ partition block, answer partition = some block → partitionOf block = partition)
    (topic : String) (partitions : List Int32) (place : TopicPartition) :
    blockOf? partitionOf place.topic place.partition [⟨topic, partitions.filterMap answer⟩] =
      if Asks topic partitions place then answer place.partition else none := by
  by_cases htopic : place.topic = topic
  · simp only [Asks, htopic, true_and]
    exact blockOf?_answers hanswer topic partitions place.partition
  · simp [Asks, blockOf?, blocksOf, htopic, Ne.symm htopic]

namespace BrokerState

variable {broker : BrokerState} {topic : String} {partitions : List Int32} {place : TopicPartition}

theorem listOffsets_run (id : Int32) (request : ListOffsets.Request) (broker : BrokerState) :
    (listOffsets id request).run broker =
      (⟨broker.delay, broker.unlessDown id (broker.listResponse request)⟩,
        { broker with listCalls := broker.listCalls + 1 }) := rfl

theorem fetch_run (id : Int32) (request : OffsetFetch.Request) (broker : BrokerState) :
    (fetch id request).run broker =
      (broker.unlessDown id (broker.fetchResponse request), broker) := rfl

/-! ## Offsets -/

/-- What a broker tells about the offset of a place, when it is asked about some partitions of a
topic. Of a partition that is left out nothing can be told, whether or not there is a log. -/
inductive OffsetTold (broker : BrokerState) (topic : String) (partitions : List Int32)
    (timestamp : Int64) (place : TopicPartition) : Except Failure Int64 → Prop
  | unasked (hunasked : ¬Asks topic partitions place) :
      OffsetTold broker topic partitions timestamp place
        (.error (.protocol (.blockAbsent place.topic place.partition)))
  | omitted (hasked : Asks topic partitions place) (homitted : place ∈ broker.omitted) :
      OffsetTold broker topic partitions timestamp place
        (.error (.protocol (.blockAbsent place.topic place.partition)))
  | unknown (hasked : Asks topic partitions place) (hlisted : place ∉ broker.omitted)
      (hunknown : broker.logs[place]? = none) :
      OffsetTold broker topic partitions timestamp place
        (.error (.remote (.blockRefused place.topic place.partition) 3))
  | known (hasked : Asks topic partitions place) (hlisted : place ∉ broker.omitted)
      {log : PartitionLog} (hknown : broker.logs[place]? = some log) :
      OffsetTold broker topic partitions timestamp place
        (.ok (if timestamp = -2 then log.oldest else log.newest))

theorem OffsetTold.unique {timestamp : Int64} {first second : Except Failure Int64}
    (hfirst : OffsetTold broker topic partitions timestamp place first)
    (hsecond : OffsetTold broker topic partitions timestamp place second) : first = second := by
  -- No two of the reasons hold at once, and a place has one log at most.
  cases hfirst <;> cases hsecond <;> grind

theorem offset_ofTimestamp (log : PartitionLog) (timestamp : Int64) :
    log.offset (.ofTimestamp timestamp) = if timestamp = -2 then log.oldest else log.newest :=
  apply_ite log.offset _ _ _

theorem blockOf?_listResponse_place (broker : BrokerState) (topic : String)
    (partitions : List Int32) (timestamp : Int64) (place : TopicPartition) :
    blockOf? ListOffsets.Block.partition place.topic place.partition
        (broker.listResponse (ListOffsets.request topic partitions timestamp)).topics =
      if Asks topic partitions place then
        broker.listBlock? topic { partition := place.partition, timestamp }
      else none := by
  simp only [listResponse, ListOffsets.request, List.map_cons, List.map_nil, List.filterMap_map]
  exact blockOf?_asked (fun _ _ hanswer => partition_of_listBlock? hanswer) topic partitions place

/-- What is read from the answer to a request for offsets is what is told. -/
theorem offsetTold_listResponse (broker : BrokerState) (topic : String) (partitions : List Int32)
    (timestamp : Int64) (place : TopicPartition) :
    OffsetTold broker topic partitions timestamp place
      ((broker.listResponse (ListOffsets.request topic partitions timestamp)).offsetOf
        place.topic place.partition) := by
  rw [ListOffsets.Response.offsetOf, blockOf?_listResponse_place]
  by_cases hasked : Asks topic partitions place
  · -- A place that is asked about is one of the topic of the request.
    obtain ⟨named, partition⟩ := place
    obtain rfl : named = topic := hasked.1
    rw [if_pos hasked, listBlock?]
    by_cases homitted : TopicPartition.mk named partition ∈ broker.omitted
    · simpa [homitted] using OffsetTold.omitted hasked homitted
    · cases hlog : broker.logs[TopicPartition.mk named partition]? with
      | none => simpa [homitted, unknownPartition] using OffsetTold.unknown hasked homitted hlog
      | some log =>
          simpa [homitted, offset_ofTimestamp] using OffsetTold.known hasked homitted hlog
  · rw [if_neg hasked]
    exact .unasked hasked

/-! ## Marks -/

/-- What a broker tells about the mark of a group in a place, when it is asked about some partitions
of a topic. A refusal comes without the mark, even if there is one. -/
inductive MarkTold (broker : BrokerState) (group topic : String) (partitions : List Int32)
    (place : TopicPartition) : Option OffsetFetch.Block → Prop
  | unasked (hunasked : ¬Asks topic partitions place) :
      MarkTold broker group topic partitions place none
  | omitted (hasked : Asks topic partitions place) (homitted : place ∈ broker.omitted) :
      MarkTold broker group topic partitions place none
  | refused (hasked : Asks topic partitions place) (hlisted : place ∉ broker.omitted)
      {code : Int16} (hrefused : broker.fetchCodes[place]? = some code) :
      MarkTold broker group topic partitions place
        (some { partition := place.partition, offset := -1, code })
  | stored (hasked : Asks topic partitions place) (hlisted : place ∉ broker.omitted)
      (hfree : broker.fetchCodes[place]? = none) {mark : Mark}
      (hmark : (broker.mark? group place).getD noMark = mark) :
      MarkTold broker group topic partitions place
        (some
          { partition := place.partition
            offset := mark.offset
            metadata := if broker.hidesMetadata then none else some mark.metadata
            code := 0 })

theorem MarkTold.unique {group : String} {first second : Option OffsetFetch.Block}
    (hfirst : MarkTold broker group topic partitions place first)
    (hsecond : MarkTold broker group topic partitions place second) : first = second := by
  cases hfirst <;> cases hsecond <;> grind

theorem blockOf?_fetchResponse_place (hfetches : broker.fetchCode = 0) (group topic : String)
    (partitions : List Int32) (place : TopicPartition) :
    (broker.fetchResponse (OffsetFetch.request group topic partitions)).blockOf?
        place.topic place.partition =
      if Asks topic partitions place then broker.fetchBlock? group topic place.partition
      else none := by
  simp only [OffsetFetch.Response.blockOf?, fetchResponse, hfetches]
  exact blockOf?_asked (fun _ _ hanswer => partition_of_fetchBlock? hanswer) topic partitions place

/-- What is found in the answer to a fetch that is not refused as a whole is what is told. -/
theorem markTold_fetchResponse (hfetches : broker.fetchCode = 0) (group topic : String)
    (partitions : List Int32) (place : TopicPartition) :
    MarkTold broker group topic partitions place
      ((broker.fetchResponse (OffsetFetch.request group topic partitions)).blockOf?
        place.topic place.partition) := by
  rw [blockOf?_fetchResponse_place hfetches]
  by_cases hasked : Asks topic partitions place
  · obtain ⟨named, partition⟩ := place
    obtain rfl : named = topic := hasked.1
    rw [if_pos hasked, fetchBlock?]
    by_cases homitted : TopicPartition.mk named partition ∈ broker.omitted
    · simpa [homitted] using MarkTold.omitted hasked homitted
    · cases hcode : broker.fetchCodes[TopicPartition.mk named partition]? with
      | some code => simpa [homitted] using MarkTold.refused hasked homitted hcode
      | none => simpa [homitted, noMark] using MarkTold.stored hasked homitted hcode rfl
  · rw [if_neg hasked]
    exact .unasked hasked

/-! ## Commits -/

/-- The results of a commit are one for each record, in order, unless the answer is emptied. -/
theorem resultsOf_commitResponse_of_topic (broker : BrokerState) (group topic named : String)
    (batch : List Progress) :
    (broker.commitResponse (OffsetCommit.request group topic batch)).resultsOf named =
      if named = topic ∧ broker.mutesCommits = false then
        batch.map fun record =>
          { partition := record.partition
            code := (broker.commitCodes[TopicPartition.mk topic record.partition]?).getD 0 }
      else [] := by
  cases hmutes : broker.mutesCommits with
  | true => simp [commitResponse, hmutes, OffsetCommit.Response.resultsOf]
  | false =>
      by_cases htopic : named = topic
      · subst htopic
        rw [resultsOf_commitResponse hmutes]
        simp [commitResult, OffsetCommit.Entry.ofProgress, Std.ExtTreeMap.getD_eq_getD_getElem?]
      · simp [commitResponse, hmutes, OffsetCommit.Response.resultsOf, OffsetCommit.request,
          blocksOf, htopic, Ne.symm htopic]

/-! ## All exchanges -/

/-- A broker that is up answers every request, and what is read from its answers is what it knows
and was asked about. A list of offsets tells those of the logs, and a fetch that is not refused as a
whole tells the marks that are stored; how often a partition is named does not matter. Unless it is
emptied, the answer to a commit has one result for each record of the batch, in order. -/
theorem exchanges_agree {broker : BrokerState} (hup : broker.outage = none) (id : Int32)
    (group topic : String) :
    (∀ partitions timestamp, ∃ response,
      (listOffsets id (ListOffsets.request topic partitions timestamp)).run broker =
        (⟨broker.delay, .ok response⟩, { broker with listCalls := broker.listCalls + 1 }) ∧
      ∀ (place : TopicPartition) result,
        response.offsetOf place.topic place.partition = result ↔
          OffsetTold broker topic partitions timestamp place result) ∧
    (∀ partitions, broker.fetchCode = 0 → ∃ response,
      (fetch id (OffsetFetch.request group topic partitions)).run broker =
        (.ok response, broker) ∧
      response.code = 0 ∧
      ∀ (place : TopicPartition) found,
        response.blockOf? place.topic place.partition = found ↔
          MarkTold broker group topic partitions place found) ∧
    ∀ batch, ∃ response,
      (commit id (OffsetCommit.request group topic batch)).run broker =
        (.ok response, broker.storeAll (OffsetCommit.request group topic batch)) ∧
      ∀ named, response.resultsOf named =
        if named = topic ∧ broker.mutesCommits = false then
          batch.map fun record =>
            { partition := record.partition
              code := (broker.commitCodes[TopicPartition.mk topic record.partition]?).getD 0 }
        else [] := by
  refine ⟨fun partitions timestamp => ?_, fun partitions hfetches => ?_, fun batch => ?_⟩
  · refine ⟨broker.listResponse (ListOffsets.request topic partitions timestamp), ?_,
      fun place result => ?_⟩
    · rw [listOffsets_run, unlessDown_eq_ok.mpr ⟨hup, rfl⟩]
    · have htold := offsetTold_listResponse broker topic partitions timestamp place
      exact ⟨fun hresult => hresult ▸ htold, htold.unique⟩
  · refine ⟨broker.fetchResponse (OffsetFetch.request group topic partitions), ?_, ?_,
      fun place found => ?_⟩
    · rw [fetch_run, unlessDown_eq_ok.mpr ⟨hup, rfl⟩]
    · simp [fetchResponse, hfetches]
    · have htold := markTold_fetchResponse hfetches group topic partitions place
      exact ⟨fun hfound => hfound ▸ htold, htold.unique⟩
  · refine ⟨broker.commitResponse (OffsetCommit.request group topic batch), ?_, fun named => ?_⟩
    · rw [commit_run, hup]
    · exact resultsOf_commitResponse_of_topic broker group topic named batch

/-- A broker that leaves one partition out, keeps no log of another and refuses the marks of that,
and is asked about a partition twice. -/
theorem exchanges_agree_beside_faults :
    let broker : BrokerState :=
      { logs := (∅ : Table TopicPartition PartitionLog).insert ⟨"t", 0⟩ ⟨4, 9⟩
        marks := (∅ : Table GroupPartition Mark).insert ⟨"g", ⟨"t", 0⟩⟩ ⟨7, "m"⟩
        commitCodes := (∅ : Table TopicPartition Int16).insert ⟨"t", 1⟩ 12
        fetchCodes := (∅ : Table TopicPartition Int16).insert ⟨"t", 1⟩ 5
        omitted := (∅ : Std.ExtTreeSet TopicPartition).insert ⟨"t", 2⟩ }
    ∃ listed fetched answered,
      ((listOffsets 1 (ListOffsets.request "t" [0, 2, 1, 0] (-2))).run broker).1 =
        ⟨0, .ok listed⟩ ∧
      listed.offsetOf "t" 0 = .ok 4 ∧
      listed.offsetOf "t" 1 = .error (.remote (.blockRefused "t" 1) 3) ∧
      listed.offsetOf "t" 2 = .error (.protocol (.blockAbsent "t" 2)) ∧
      listed.offsetOf "t" 3 = .error (.protocol (.blockAbsent "t" 3)) ∧
      (fetch 1 (OffsetFetch.request "g" "t" [0, 2, 1, 0])).run broker = (.ok fetched, broker) ∧
      fetched.blockOf? "t" 0 = some { partition := 0, offset := 7, metadata := some "m" } ∧
      fetched.blockOf? "t" 1 = some { partition := 1, offset := -1, code := 5 } ∧
      fetched.blockOf? "t" 2 = none ∧
      ((commit 1 (OffsetCommit.request "g" "t"
        [.toCommit 0 ⟨8, "a"⟩, .toCommit 1 ⟨5, ""⟩, .toCommit 0 ⟨9, "b"⟩])).run broker).1 =
          .ok answered ∧
      answered.resultsOf "t" =
        [{ partition := 0 }, { partition := 1, code := 12 }, { partition := 0 }] := by
  intro broker
  have hup : broker.outage = none := rfl
  obtain ⟨hoffsets, hmarks, hresults⟩ := exchanges_agree hup 1 "g" "t"
  obtain ⟨listed, hlisted, hoffset⟩ := hoffsets [0, 2, 1, 0] (-2)
  obtain ⟨fetched, hfetched, -, hmark⟩ := hmarks [0, 2, 1, 0] rfl
  obtain ⟨answered, hanswered, hresult⟩ :=
    hresults [.toCommit 0 ⟨8, "a"⟩, .toCommit 1 ⟨5, ""⟩, .toCommit 0 ⟨9, "b"⟩]
  have hfirst : Asks "t" [0, 2, 1, 0] ⟨"t", 0⟩ ∧ ⟨"t", 0⟩ ∉ broker.omitted := by decide
  have hsecond : Asks "t" [0, 2, 1, 0] ⟨"t", 1⟩ ∧ ⟨"t", 1⟩ ∉ broker.omitted := by decide
  have hthird : Asks "t" [0, 2, 1, 0] ⟨"t", 2⟩ ∧ ⟨"t", 2⟩ ∈ broker.omitted := by decide
  refine ⟨listed, fetched, answered, congrArg Prod.fst hlisted, ?_, ?_, ?_, ?_, hfetched, ?_, ?_,
    ?_, congrArg Prod.fst hanswered, hresult "t"⟩
  · exact (hoffset ⟨"t", 0⟩ _).mpr (.known hfirst.1 hfirst.2 rfl)
  · exact (hoffset ⟨"t", 1⟩ _).mpr (.unknown hsecond.1 hsecond.2 rfl)
  · exact (hoffset ⟨"t", 2⟩ _).mpr (.omitted hthird.1 hthird.2)
  · exact (hoffset ⟨"t", 3⟩ _).mpr (.unasked (by decide))
  · exact (hmark ⟨"t", 0⟩ _).mpr (.stored hfirst.1 hfirst.2 rfl rfl)
  · exact (hmark ⟨"t", 1⟩ _).mpr (.refused hsecond.1 hsecond.2 rfl)
  · exact (hmark ⟨"t", 2⟩ _).mpr (.omitted hthird.1 hthird.2)

end BrokerState

end ConsumerGroups.Simulated
