import ConsumerGroups.Proofs.Range.Leaders
import ConsumerGroups.Proofs.Timed

/-! # What the leaders answer

Of all brokers with one identifier the first is asked, once for each end of the logs it leads.
What a share comes to is a function of these two replies, and so is every record in it.
-/

namespace ConsumerGroups.Range

open Message Results

variable {σ : Type}

/-- The replies of a broker that is asked for both ends of its logs. If the request for the
oldest end fails at once, the newest end is never asked for. -/
inductive EndReplies
  | cut (cause : Cause)
  | both (oldest newest : Timed (Reply ListOffsets.Response))

/-- Asks a broker for both ends of the logs of some partitions, the oldest end first. -/
def askEnds (topic : String) (partitions : List Int32) (broker : Broker σ) :
    StateM σ EndReplies := do
  let ask (boundary : Boundary) := broker.listOffsets ListOffsets.version
    (ListOffsets.request topic partitions boundary.timestamp)
  match ← ask .oldest with
  | ⟨0, .error cause⟩ => pure (.cut cause)
  | oldest => return .both oldest (← ask .newest)

/-- Both replies were given one after the other. -/
theorem askEnds_eq_both {topic : String} {partitions : List Int32} {broker : Broker σ} {state : σ}
    {oldest newest : Timed (Reply ListOffsets.Response)}
    (hreplies : ((askEnds topic partitions broker).run state).1 = .both oldest newest) :
    let ask (boundary : Boundary) := broker.listOffsets ListOffsets.version
      (ListOffsets.request topic partitions boundary.timestamp)
    ((ask .oldest).run state).1 = oldest ∧
      ((ask .newest).run ((ask .oldest).run state).2).1 = newest := by
  intro ask
  unfold askEnds at hreplies
  rw [bind_run] at hreplies
  split at hreplies
  · cases hreplies
  · rw [bind_run] at hreplies
    injection hreplies with holdest hnewest
    exact ⟨holdest, hnewest⟩

/-- A first reply that is a response lets the second be asked for. -/
theorem askEnds_of_response {topic : String} {partitions : List Int32} {broker : Broker σ}
    {state reached : σ} {time : Nat} {response : ListOffsets.Response}
    (holdest : (broker.listOffsets ListOffsets.version
      (ListOffsets.request topic partitions Boundary.oldest.timestamp)).run state =
        (⟨time, .ok response⟩, reached)) :
    ((askEnds topic partitions broker).run state).1 = .both ⟨time, .ok response⟩
      ((broker.listOffsets ListOffsets.version
        (ListOffsets.request topic partitions Boundary.newest.timestamp)).run reached).1 := by
  unfold askEnds
  rw [bind_run, holdest]
  cases time <;> rfl

/-- Asks the first broker of every identifier about the partitions that the identifier leads. -/
def hear (topic : String) (partitions : List Int32) (leaders : List (Broker σ)) :
    StateM σ (List (Broker σ × EndReplies)) :=
  (firstsBy Broker.id leaders).mapM fun broker =>
    (broker, ·) <$> askEnds topic (ledBy broker.id partitions (leaders.map Broker.id)) broker

/-- A record of a partition holds the offsets that two replies give for it, and no mark. -/
def ReadFrom (topic : String) (partition : Int32) (replies : EndReplies) (record : Progress) :
    Prop :=
  ∃ sooner later oldest newest first last,
    replies = .both ⟨sooner, .ok oldest⟩ ⟨later, .ok newest⟩ ∧
      ListOffsets.Response.offsetOf oldest topic partition = .ok first ∧
      ListOffsets.Response.offsetOf newest topic partition = .ok last ∧
      record = { partition, oldest := first, newest := last }

/-- What a share comes to once its broker has answered. -/
def Share.outcome (topic : String) (share : Share σ) :
    EndReplies → Timed (Except Failure (List (Nat × Progress)))
  | .cut cause => ⟨0, .error (.connection (.boundaryOffset .oldest share.broker.id) cause)⟩
  | .both oldest newest =>
    ((oldest.mapError (.connection (.boundaryOffset .oldest share.broker.id))).both
      (newest.mapError (.connection (.boundaryOffset .newest share.broker.id)))).andThen
        (share.rows topic)

/-- The survey of a share reads the replies of its broker, and nothing else. -/
theorem Share.survey_eq (topic : String) (share : Share σ) :
    share.survey topic = share.outcome topic <$> askEnds topic share.partitions share.broker := by
  simp only [Share.survey, Share.ask, askEnds, map_bind, bind_assoc, pure_bind,
    Timed.failsAtOnce_mapError]
  apply bind_congr
  intro reply
  rcases reply with ⟨time, answer⟩
  cases answer with
  | ok oldest => simp [Timed.failsAtOnce, Share.outcome]
  | error cause =>
      -- Only a failure at time zero keeps the second request from being sent.
      cases time with
      | zero => simp [Timed.failsAtOnce, Share.outcome, Timed.mapError, Timed.andThen,
          Except.mapError, Except.bind]
      | succ time => simp [Timed.failsAtOnce, Share.outcome]

/-- What a share comes to depends on its broker's identifier and its places alone. -/
theorem Share.outcome_congr {τ : Type} {share : Share σ} {other : Share τ}
    (hid : share.broker.id = other.broker.id) (hplaces : share.places = other.places)
    (topic : String) (replies : EndReplies) :
    share.outcome topic replies = other.outcome topic replies := by
  have hrow : share.row topic = other.row topic := by
    funext oldest newest place
    simp only [Share.row, Share.offsetAt, hid]
  have hrows : share.rows topic = other.rows topic := by
    funext responses
    simp only [Share.rows, hplaces, hrow]
  cases replies <;> simp only [Share.outcome, hid, hrows]

theorem Share.row_eq_ok {topic : String} {share : Share σ}
    {oldest newest : ListOffsets.Response} {place : Nat × Int32} {row : Nat × Progress} :
    share.row topic oldest newest place = .ok row ↔
      ∃ first last, oldest.offsetOf topic place.2 = .ok first ∧
        newest.offsetOf topic place.2 = .ok last ∧
        row = (place.1, { partition := place.2, oldest := first, newest := last }) := by
  simp only [Share.row, Share.offsetAt, bind_eq_ok, inContext_eq_ok]
  constructor
  · rintro ⟨first, hfirst, last, hlast, hrow⟩
    exact ⟨first, last, hfirst, hlast, (Except.ok.inj hrow).symm⟩
  · rintro ⟨first, last, hfirst, hlast, rfl⟩
    exact ⟨first, hfirst, last, hlast, rfl⟩

/-- A share succeeds exactly if both requests did and every partition has a record. -/
theorem Share.outcome_eq_ok {topic : String} {share : Share σ} {replies : EndReplies}
    {rows : List (Nat × Progress)} :
    (share.outcome topic replies).value = .ok rows ↔
      ∃ sooner later oldest newest, replies = .both ⟨sooner, .ok oldest⟩ ⟨later, .ok newest⟩ ∧
        share.places.map (share.row topic oldest newest) = rows.map .ok := by
  cases replies with
  | cut cause => simp [Share.outcome]
  | both oldest newest =>
      rcases oldest with ⟨sooner, oldest⟩
      rcases newest with ⟨later, newest⟩
      rw [Share.outcome, Timed.andThen_eq_ok]
      constructor
      · rintro ⟨⟨first, second⟩, hboth, hrows⟩
        obtain ⟨hfirst, hsecond⟩ := Timed.both_eq_ok.mp hboth
        obtain rfl := Timed.mapError_eq_ok.mp hfirst
        obtain rfl := Timed.mapError_eq_ok.mp hsecond
        exact ⟨sooner, later, first, second, rfl, mapM_eq_ok.mp hrows⟩
      · rintro ⟨_, _, first, second, hreplies, hrows⟩
        cases hreplies
        exact ⟨(first, second), Timed.both_eq_ok.mpr ⟨rfl, rfl⟩, mapM_eq_ok.mpr hrows⟩

/-- The rows of a share stand at the places of the share. -/
theorem Share.places_of_outcome {topic : String} {share : Share σ} {replies : EndReplies}
    {rows : List (Nat × Progress)} (hrows : (share.outcome topic replies).value = .ok rows) :
    rows.map (·.1) = share.places.map (·.1) := by
  obtain ⟨_, _, oldest, newest, -, hplaces⟩ := Share.outcome_eq_ok.mp hrows
  apply map_successes hplaces
  intro place row hrow
  obtain ⟨_, _, _, _, rfl⟩ := Share.row_eq_ok.mp hrow
  rfl

theorem map_fst_hear (topic : String) (partitions : List Int32) (leaders : List (Broker σ))
    (state : σ) :
    (((hear topic partitions leaders).run state).1).map (·.1) = firstsBy Broker.id leaders := by
  unfold hear
  -- Only who is asked matters for the induction, not why.
  generalize firstsBy Broker.id leaders = brokers
  induction brokers generalizing state with
  | nil => rfl
  | cons broker rest ih =>
      rw [mapM_cons_run]
      simp only [List.map_cons, ih]
      rfl

theorem exists_heard {topic : String} {partitions : List Int32} {leaders : List (Broker σ)}
    {broker : Broker σ} (hbroker : broker ∈ firstsBy Broker.id leaders) (state : σ) :
    ∃ replies, (broker, replies) ∈ ((hear topic partitions leaders).run state).1 := by
  rw [← map_fst_hear topic partitions leaders state] at hbroker
  obtain ⟨⟨first, replies⟩, hheard, rfl⟩ := List.mem_map.mp hbroker
  exact ⟨replies, hheard⟩

/-- Of the brokers heard no two have the same identifier. -/
theorem hear_unique {topic : String} {partitions : List Int32} {leaders : List (Broker σ)}
    {state : σ} {first second : Broker σ × EndReplies}
    (hfirst : first ∈ ((hear topic partitions leaders).run state).1)
    (hsecond : second ∈ ((hear topic partitions leaders).run state).1)
    (hid : first.1.id = second.1.id) : first = second := by
  have hnodup := nodup_firstsBy Broker.id leaders
  rw [← map_fst_hear topic partitions leaders state, List.map_map] at hnodup
  exact List.inj_on_of_nodup_map hnodup hfirst hsecond hid

end ConsumerGroups.Range
