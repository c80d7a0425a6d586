import ConsumerGroups.Proofs.Failures.Accounts
import ConsumerGroups.Proofs.Range.Hearing

/-! # What a fan-out to leaders accounts for

Of the requests that are sent to all leaders at the same time several may fail, or be answered by
a response that cannot be used. What counts is the failure that arrives first. So a request that
fails may be forestalled, but only by one that is answered no later. A response is not looked at
before the leader has answered for both ends of its logs, and may be forestalled until then.
-/

namespace ConsumerGroups.Range

open Message Results

variable {σ : Type}

/-- The request for one end of the logs of some partitions, with its answer. -/
def askedFor (id : Int32) (topic : String) (asked : List Int32) (boundary : Boundary)
    (answer : Timed (Reply ListOffsets.Response)) : Exchange :=
  .listOffsets id ListOffsets.version (ListOffsets.request topic asked boundary.timestamp) answer

/-- The answers of a broker that is asked for both ends, each with the end it was asked for. -/
def EndReplies.answers : EndReplies → List (Boundary × Timed (Reply ListOffsets.Response))
  | .cut cause => [(.oldest, ⟨0, .error cause⟩)]
  | .both oldest newest => [(.oldest, oldest), (.newest, newest)]

/-- The exchanges with the broker of a share that is asked for both ends. -/
def Share.exchanges (topic : String) (share : Share σ) (replies : EndReplies) : List Exchange :=
  replies.answers.map fun (boundary, answer) =>
    askedFor share.broker.id topic share.partitions boundary answer

/-- The survey of a share by a recorded broker has the replies recorded. -/
theorem Share.survey_recorded (topic : String) (share : Share σ) (recorded : Recorded σ) :
    ∃ replies state, (share.recorded.survey topic).run recorded =
      (share.outcome topic replies, ⟨state, recorded.log ++ share.exchanges topic replies⟩) := by
  let ask (boundary : Boundary) := share.broker.listOffsets ListOffsets.version
    (ListOffsets.request topic share.partitions boundary.timestamp)
  have hask (boundary : Boundary) (recorded : Recorded σ) :
      (share.recorded.broker.listOffsets ListOffsets.version
        (ListOffsets.request topic share.recorded.partitions boundary.timestamp)).run recorded =
      (((ask boundary).run recorded.state).1, ⟨((ask boundary).run recorded.state).2,
        recorded.log ++ [askedFor share.broker.id topic share.partitions boundary
          ((ask boundary).run recorded.state).1]⟩) := rfl
  have hboth (oldest : Timed (Reply ListOffsets.Response)) (recorded : Recorded σ) :
      (do return EndReplies.both oldest (← share.recorded.broker.listOffsets ListOffsets.version
        (ListOffsets.request topic share.recorded.partitions Boundary.newest.timestamp))).run
          recorded =
      (.both oldest ((ask .newest).run recorded.state).1, ⟨((ask .newest).run recorded.state).2,
        recorded.log ++ [askedFor share.broker.id topic share.partitions .newest
          ((ask .newest).run recorded.state).1]⟩) := rfl
  rw [Share.survey_eq, map_run, askEnds, bind_run, hask]
  simp only [Share.exchanges]
  rcases (ask .oldest).run recorded.state with ⟨⟨time, answer⟩, state⟩
  rcases answer with cause | response
  · -- Only a failure at time zero keeps the second request from being sent.
    cases time with
    | zero => exact ⟨.cut cause, state, rfl⟩
    | succ time =>
        simp only [hboth]
        exact ⟨.both ⟨time + 1, .error cause⟩ _, _, by simp [EndReplies.answers]; rfl⟩
  · simp only [hboth]
    exact ⟨.both ⟨time, .ok response⟩ _, _, by simp [EndReplies.answers]; rfl⟩

/-- The surveys of shares by recorded brokers have the replies recorded, share by share. -/
theorem surveys_recorded (topic : String) (shares : List (Share σ)) (recorded : Recorded σ) :
    ∃ (heard : List (Share σ × EndReplies)) (state : σ), heard.map (·.1) = shares ∧
      ((shares.map Share.recorded).mapM (Share.survey topic)).run recorded =
        (heard.map fun (share, replies) => share.outcome topic replies,
          ⟨state, recorded.log ++
            heard.flatMap fun (share, replies) => share.exchanges topic replies⟩) := by
  induction shares generalizing recorded with
  | nil => exact ⟨[], recorded.state, rfl, by simp; rfl⟩
  | cons share rest ih =>
      obtain ⟨replies, middle, hfirst⟩ := share.survey_recorded topic recorded
      obtain ⟨heard, state, rfl, hrest⟩ :=
        ih ⟨middle, recorded.log ++ share.exchanges topic replies⟩
      refine ⟨(share, replies) :: heard, state, rfl, ?_⟩
      rw [List.map_cons, mapM_cons_run, hfirst, hrest]
      simp

/-! ## One share -/

variable {chroot topic : String} {share : Share σ} {replies : EndReplies}

/-- A response that holds an offset for every partition is not to blame for anything. -/
theorem not_spoiled_of_offsets {response : ListOffsets.Response} {asked : List Int32}
    (hall : ∀ partition ∈ asked, ∃ offset, response.offsetOf topic partition = .ok offset)
    (id : Int32) (boundary : Boundary) (time : Nat) :
    ¬(askedFor id topic asked boundary ⟨time, .ok response⟩).Spoiled chroot := by
  obtain ⟨offsets, hoffsets⟩ := exists_successes hall
  refine Exchange.not_spoiled_of_read ?_ (fun failure => Exchange.offsets_eq_error_iff)
    (mapM_eq_ok.mpr hoffsets)
  rintro ⟨cause, ⟨⟩⟩

/-- A share that succeeds was answered so that nothing is to blame. -/
theorem Share.not_spoiled_of_outcome {rows : List (Nat × Progress)}
    (hrows : (share.outcome topic replies).value = .ok rows) :
    ∀ exchange ∈ share.exchanges topic replies, ¬exchange.Spoiled chroot := by
  obtain ⟨sooner, later, oldest, newest, rfl, hplaces⟩ := Share.outcome_eq_ok.mp hrows
  have hread : ∀ partition ∈ share.partitions,
      (∃ first, oldest.offsetOf topic partition = .ok first) ∧
        ∃ last, newest.offsetOf topic partition = .ok last := by
    intro partition hpartition
    obtain ⟨place, hplace, rfl⟩ := List.mem_map.mp hpartition
    obtain ⟨row, -, hrow⟩ := mem_of_successes hplaces hplace
    obtain ⟨first, last, hfirst, hlast, -⟩ := Share.row_eq_ok.mp hrow
    exact ⟨⟨first, hfirst⟩, ⟨last, hlast⟩⟩
  intro exchange hexchange
  simp only [Share.exchanges, EndReplies.answers, List.map_cons, List.map_nil, List.mem_cons,
    List.not_mem_nil, or_false] at hexchange
  rcases hexchange with rfl | rfl
  · exact not_spoiled_of_offsets (fun partition hpartition => (hread partition hpartition).1) _ _ _
  · exact not_spoiled_of_offsets (fun partition hpartition => (hread partition hpartition).2) _ _ _

/-- What a share comes to is there when one of its answers is. -/
theorem Share.time_outcome (topic : String) (share : Share σ) (replies : EndReplies) :
    ∃ boundary answer, (boundary, answer) ∈ replies.answers ∧
      (share.outcome topic replies).time = answer.time := by
  cases replies with
  | cut cause => exact ⟨.oldest, _, List.mem_cons_self, rfl⟩
  | both oldest newest =>
      rcases Timed.time_both (oldest.mapError (Failure.connection
        (.boundaryOffset .oldest share.broker.id))) (newest.mapError (Failure.connection
        (.boundaryOffset .newest share.broker.id))) with htime | htime
      · exact ⟨.oldest, oldest, by simp [EndReplies.answers], htime⟩
      · exact ⟨.newest, newest, by simp [EndReplies.answers], htime⟩

/-- A share has come to something when an error among its answers arrives. -/
theorem Share.time_outcome_le {boundary : Boundary} {answer : Timed (Reply ListOffsets.Response)}
    (hanswer : (boundary, answer) ∈ replies.answers) {cause : Cause}
    (hcause : answer.value = .error cause) :
    (share.outcome topic replies).time ≤ answer.time := by
  cases replies with
  | cut other => exact Nat.zero_le _
  | both oldest newest =>
      let failed (boundary : Boundary) :=
        Failure.connection (.boundaryOffset boundary share.broker.id)
      have hfails : ((oldest.mapError (failed .oldest)).value = .error (failed boundary cause) ∧
            oldest.time = answer.time) ∨
          ((newest.mapError (failed .newest)).value = .error (failed boundary cause) ∧
            newest.time = answer.time) := by
        simp only [EndReplies.answers, List.mem_cons, List.not_mem_nil, or_false,
          Prod.mk.injEq] at hanswer
        rcases hanswer with ⟨rfl, rfl⟩ | ⟨rfl, rfl⟩
        · exact .inl ⟨Timed.mapError_eq_error.mpr ⟨cause, hcause, rfl⟩, rfl⟩
        · exact .inr ⟨Timed.mapError_eq_error.mpr ⟨cause, hcause, rfl⟩, rfl⟩
      exact Timed.time_both_le_of_error hfails

/-- Whatever has arrived when a share comes to something forestalls the answers to the share. -/
theorem Share.forestalls {boundary : Boundary} {answer : Timed (Reply ListOffsets.Response)}
    (hanswer : (boundary, answer) ∈ replies.answers) {first : Int32} {version : Int16}
    {request : ListOffsets.Request} {sooner : Timed (Reply ListOffsets.Response)}
    (htime : sooner.time ≤ (share.outcome topic replies).time) {log : List Exchange}
    (hlog : share.exchanges topic replies ⊆ log) :
    (Exchange.listOffsets first version request sooner).Forestalls chroot log
      (askedFor share.broker.id topic share.partitions boundary answer) := by
  rcases answer with ⟨time, cause | response⟩
  · exact .sooner (Nat.le_trans htime (Share.time_outcome_le hanswer rfl))
  · obtain ⟨other, last, hlast, hsame⟩ := Share.time_outcome topic share replies
    exact .paired (hlog (List.mem_map_of_mem hlast)) (Nat.le_trans htime (Nat.le_of_eq hsame))

/-- Rows that cannot be read are explained by one of the two responses. -/
theorem Share.explains_rows {oldest newest : ListOffsets.Response} {failure : Failure}
    (hfailure : share.rows topic (oldest, newest) = .error failure) (sooner later : Nat) :
    (askedFor share.broker.id topic share.partitions .oldest ⟨sooner, .ok oldest⟩).Explains chroot
        failure.context failure.reason ∨
      (askedFor share.broker.id topic share.partitions .newest ⟨later, .ok newest⟩).Explains chroot
        failure.context failure.reason := by
  obtain ⟨passed, place, rest, hplaces, hpassed, hrow⟩ := mapM_eq_error_iff.mp hfailure
  have hpartitions : share.partitions = passed.map (·.2) ++ place.2 :: rest.map (·.2) := by
    simp [Share.partitions, hplaces]
  have hread : ∀ partition ∈ passed.map (·.2),
      (∃ first, oldest.offsetOf topic partition = .ok first) ∧
        ∃ last, newest.offsetOf topic partition = .ok last := by
    intro partition hpartition
    obtain ⟨other, hother, rfl⟩ := List.mem_map.mp hpartition
    obtain ⟨row, hrow⟩ := hpassed other hother
    obtain ⟨first, last, hfirst, hlast, -⟩ := Share.row_eq_ok.mp hrow
    exact ⟨⟨first, hfirst⟩, ⟨last, hlast⟩⟩
  simp only [Share.row, Share.offsetAt, bind_eq_error, inContext_eq_error] at hrow
  rcases hrow with ⟨inner, hinner, rfl⟩ | ⟨_, -, ⟨inner, hinner, rfl⟩ | ⟨_, -, hpure⟩⟩
  · have hfails : share.partitions.mapM (oldest.offsetOf topic) = .error inner :=
      mapM_eq_error_iff.mpr
        ⟨_, _, _, hpartitions, fun other hother => (hread other hother).1, hinner⟩
    exact .inl (Exchange.offsets_eq_error_iff.mp hfails).2
  · have hfails : share.partitions.mapM (newest.offsetOf topic) = .error inner :=
      mapM_eq_error_iff.mpr
        ⟨_, _, _, hpartitions, fun other hother => (hread other hother).2, hinner⟩
    exact .inr (Exchange.offsets_eq_error_iff.mp hfails).2
  · cases hpure

/-- A share that fails is explained by an answer that has arrived by then. -/
theorem Share.explains_outcome {failure : Failure}
    (hfailure : (share.outcome topic replies).value = .error failure) :
    ∃ boundary answer, (boundary, answer) ∈ replies.answers ∧
      answer.time ≤ (share.outcome topic replies).time ∧
      (askedFor share.broker.id topic share.partitions boundary answer).Explains chroot
        failure.context failure.reason := by
  rcases replies with cause | ⟨⟨sooner, oldest⟩, ⟨later, newest⟩⟩
  · cases hfailure
    exact ⟨.oldest, _, List.mem_cons_self, Nat.le_refl _, Exchange.Faults.listOffsets⟩
  have hfirst : (Boundary.oldest, ⟨sooner, oldest⟩) ∈
      (EndReplies.both ⟨sooner, oldest⟩ ⟨later, newest⟩).answers := by simp [EndReplies.answers]
  have hsecond : (Boundary.newest, ⟨later, newest⟩) ∈
      (EndReplies.both ⟨sooner, oldest⟩ ⟨later, newest⟩).answers := by simp [EndReplies.answers]
  rcases Timed.andThen_eq_error.mp hfailure with hboth | ⟨⟨old, new⟩, hboth, hrows⟩
  · -- One of the requests has failed.
    rcases Timed.both_eq_error hboth with ⟨hvalue, htime⟩ | ⟨hvalue, htime⟩
    · obtain ⟨cause, rfl, rfl⟩ := Timed.mapError_eq_error.mp hvalue
      exact ⟨.oldest, _, hfirst, Nat.le_of_eq htime, Exchange.Faults.listOffsets⟩
    · obtain ⟨cause, rfl, rfl⟩ := Timed.mapError_eq_error.mp hvalue
      exact ⟨.newest, _, hsecond, Nat.le_of_eq htime, Exchange.Faults.listOffsets⟩
  · -- Both were answered, and a row cannot be read from the responses.
    obtain ⟨hold, hnew⟩ := Timed.both_eq_ok.mp hboth
    obtain rfl := Timed.mapError_eq_ok.mp hold
    obtain rfl := Timed.mapError_eq_ok.mp hnew
    obtain ⟨hsooner, hlater⟩ := Timed.time_le_both hboth
    rcases Share.explains_rows hrows sooner later with hexplains | hexplains
    · exact ⟨.oldest, _, hfirst, hsooner, hexplains⟩
    · exact ⟨.newest, _, hsecond, hlater, hexplains⟩

/-! ## All shares -/

/-- What is asked of the leaders that are heard. -/
theorem mem_exchanges {heard : List (Share σ × EndReplies)} {exchange : Exchange} :
    exchange ∈ (heard.flatMap fun (share, replies) => share.exchanges topic replies) ↔
      ∃ share replies boundary answer, (share, replies) ∈ heard ∧
        (boundary, answer) ∈ replies.answers ∧
        askedFor share.broker.id topic share.partitions boundary answer = exchange := by
  simp only [List.mem_flatMap, Share.exchanges, List.mem_map, Prod.exists]
  grind

/-- All leaders together account for what they come to: the failure that arrives first. -/
theorem accounts_surveyShares (log : List Exchange) (size : Nat) (shares : List (Share σ)) :
    Accounts (.cluster chroot) log (surveyShares topic size (shares.map Share.recorded))
      fun _ _ => True := by
  apply Accounts.ofExchanges
  intro state
  obtain ⟨heard, reached, -, hsurveys⟩ := surveys_recorded topic shares ⟨state, log⟩
  have hrun : (surveyShares topic size (shares.map Share.recorded)).runFrom ⟨state, log⟩ =
      ((Timed.settle (heard.map fun (share, replies) => share.outcome topic replies)).map
          fun rows => placeRows size rows.flatten,
        ⟨reached, log ++
          heard.flatMap fun (share, replies) => share.exchanges topic replies⟩) := by
    rw [surveyShares, Errand.runFrom, ExceptT.run_mk, bind_run, hsurveys]
    rfl
  refine ⟨_, _, reached, hrun, fun exchange hexchange => ?_, fun value hvalue => ?_,
    fun failure hfailure => ?_⟩
  · obtain ⟨share, replies, boundary, answer, -, -, rfl⟩ := mem_exchanges.mp hexchange
    exact id
  · obtain ⟨rows, hrows, -⟩ := map_eq_ok.mp hvalue
    refine ⟨fun exchange hexchange => ?_, trivial⟩
    obtain ⟨⟨share, replies⟩, hheard, hexchange⟩ := List.mem_flatMap.mp hexchange
    rw [Timed.settle_eq_ok, List.map_map] at hrows
    obtain ⟨row, -, hrow⟩ := mem_of_successes hrows hheard
    exact fun hspoiled => Share.not_spoiled_of_outcome hrow exchange hexchange hspoiled
  · obtain ⟨first, hfirst, hvalue, hearliest⟩ := Timed.settle_eq_error (map_eq_error.mp hfailure)
    obtain ⟨⟨share, replies⟩, hheard, rfl⟩ := List.mem_map.mp hfirst
    obtain ⟨boundary, answer, hanswer, htime, hexplains⟩ := Share.explains_outcome hvalue
    refine ⟨_, mem_exchanges.mpr ⟨share, replies, boundary, answer, hheard, hanswer, rfl⟩,
      id, hexplains, fun other hother hspoiled _ => .inr ?_⟩
    obtain ⟨late, others, end', later, hothers, hlater, rfl⟩ := mem_exchanges.mp hother
    -- A share with something to blame fails, and so does not come to that before the first does.
    have hovertaken : ∃ overtaken, (late.outcome topic others).value = .error overtaken := by
      cases hrows : (late.outcome topic others).value with
      | error overtaken => exact ⟨overtaken, rfl⟩
      | ok rows =>
          exact absurd hspoiled (Share.not_spoiled_of_outcome hrows _ (List.mem_map_of_mem hlater))
    obtain ⟨overtaken, hovertaken⟩ := hovertaken
    have hbefore := hearliest _ (List.mem_map_of_mem hothers) overtaken hovertaken
    refine late.forestalls hlater (Nat.le_trans htime hbefore) fun exchange hexchange => ?_
    exact List.mem_flatMap.mpr ⟨(late, others), hothers, hexchange⟩

end ConsumerGroups.Range
