import ConsumerGroups.Proofs.Range.Hearing
import ConsumerGroups.Proofs.Range.Rows

/-! # A survey against its reference

A survey divides partitions among leaders, asks all leaders at the same time and puts the rows
back at their places. The reference knows none of this: it takes one position of the topic's
list at a time and reads its record from the replies of the first broker object with the
identifier of the leader found there.
-/

namespace ConsumerGroups.Range

open Message Results

variable {σ : Type}

/-! ## The course of a survey -/

/-- A topic without partitions needs no case of its own: no leader is looked for and no share
is asked. -/
theorem survey_run (cluster : Cluster σ) (topic : String) (state : σ) :
    (survey cluster topic).runFrom state =
      match (cluster.partitions topic).run state with
      | (.error cause, reached) => (.error (.connection .topicPartitions cause), reached)
      | (.ok partitions, reached) =>
        match (findLeaders cluster topic 0 partitions).runFrom reached with
        | (.error failure, reached) => (.error failure, reached)
        | (.ok leds, reached) =>
          (surveyShares topic partitions.length (Share.divide leds)).runFrom reached := by
  rcases hanswer : (cluster.partitions topic).run state with ⟨answer, reached⟩
  have happlied : cluster.partitions topic state = (answer, reached) := hanswer
  rw [survey, Errand.runFrom_bind, Errand.runFrom_await, happlied]
  cases answer with
  | error cause => rfl
  | ok partitions =>
      cases partitions with
      | nil => simp [Except.mapError, findLeaders, Share.divide]; rfl
      | cons partition rest =>
          simp only [Except.mapError, List.isEmpty_cons, Bool.false_eq_true, if_false,
            Errand.runFrom_bind]
          rcases (findLeaders cluster topic 0 (partition :: rest)).runFrom reached with ⟨found, _⟩
          cases found <;> rfl

/-- What the share of a broker comes to when the broker answers. -/
def outcomeOf (topic : String) (leds : List (Led σ)) (answer : Broker σ × EndReplies) :
    Timed (Except Failure (List (Nat × Progress))) :=
  (Share.of leds answer.1).outcome topic answer.2

/-- What the shares come to is read off what the leaders answer. -/
theorem shares_survey_run (topic : String) {partitions : List Int32} {leaders : List (Broker σ)}
    (hlength : leaders.length = partitions.length) (state : σ) :
    let leds := numbered 0 partitions leaders
    let heard := (hear topic partitions leaders).run state
    ((Share.divide leds).mapM (Share.survey topic)).run state =
      (heard.1.map (outcomeOf topic leds), heard.2) := by
  intro leds heard
  have hsurvey (broker : Broker σ) : Share.survey topic (Share.of leds broker) =
      outcomeOf topic leds <$> (broker, ·) <$>
        askEnds topic (ledBy broker.id partitions (leaders.map Broker.id)) broker := by
    rw [Share.survey_eq, partitions_of_numbered, Functor.map_map]
    rfl
  rw [Share.divide_eq, map_leader_numbered hlength, List.mapM_map]
  simp only [Function.comp_def, hsurvey]
  exact mapM_map_run _ _ _ _

theorem surveyShares_run (topic : String) {partitions : List Int32} {leaders : List (Broker σ)}
    (hlength : leaders.length = partitions.length) (size : Nat) (state : σ) :
    let leds := numbered 0 partitions leaders
    let heard := (hear topic partitions leaders).run state
    (surveyShares topic size (Share.divide leds)).runFrom state =
      ((Timed.settle (heard.1.map (outcomeOf topic leds))).map
        fun rows => placeRows size rows.flatten, heard.2) := by
  intro leds heard
  change (((Timed.settle (((Share.divide leds).mapM (Share.survey topic)).run state).1).map _ :
    Except Failure (List Progress)), (((Share.divide leds).mapM (Share.survey topic)).run state).2)
      = _
  rw [shares_survey_run topic hlength]

/-! ## One position -/

/-- The reference for one position: the record is read from the replies of the first broker
that has the identifier of the position's leader. -/
def RecordAt (topic : String) (leaders : List (Broker σ)) (heard : List (Broker σ × EndReplies))
    (partition : Int32) (leader : Broker σ) (record : Progress) : Prop :=
  ∃ broker replies, leaders.find? (·.id = leader.id) = some broker ∧ (broker, replies) ∈ heard ∧
    ReadFrom topic partition replies record

section Position

variable {topic : String} {partitions : List Int32} {leaders : List (Broker σ)} {state : σ}

/-- Replies hold at most one record for a partition. -/
theorem ReadFrom.unique {partition : Int32} {replies : EndReplies} {first second : Progress}
    (hfirst : ReadFrom topic partition replies first)
    (hsecond : ReadFrom topic partition replies second) : first = second := by
  obtain ⟨_, _, _, _, _, _, hreplies, holdest, hnewest, rfl⟩ := hfirst
  obtain ⟨_, _, _, _, _, _, hreplies', holdest', hnewest', rfl⟩ := hsecond
  rw [hreplies] at hreplies'
  cases hreplies'
  rw [holdest] at holdest'
  rw [hnewest] at hnewest'
  cases holdest'
  cases hnewest'
  rfl

theorem RecordAt.unique {partition : Int32} {leader : Broker σ} {first second : Progress}
    (hfirst : RecordAt topic leaders ((hear topic partitions leaders).run state).1
      partition leader first)
    (hsecond : RecordAt topic leaders ((hear topic partitions leaders).run state).1
      partition leader second) : first = second := by
  obtain ⟨broker, replies, hbroker, hheard, hread⟩ := hfirst
  obtain ⟨broker', replies', hbroker', hheard', hread'⟩ := hsecond
  obtain rfl : broker = broker' := Option.some.inj (hbroker.symm.trans hbroker')
  cases hear_unique hheard hheard' rfl
  exact hread.unique hread'

/-- If every share succeeds, their rows stand at the positions of the list, one at each. -/
theorem positions_of_rows (hlength : leaders.length = partitions.length)
    {rows : List (List (Nat × Progress))}
    (hrows : (((hear topic partitions leaders).run state).1).map
      (fun answer => (outcomeOf topic (numbered 0 partitions leaders) answer).value) =
        rows.map .ok) : (rows.flatten.map (·.1)).Perm (List.range partitions.length) := by
  have hplaces := map_successes hrows fun answer row hrow => Share.places_of_outcome hrow
  have hshares : (((hear topic partitions leaders).run state).1).map
      (fun answer => (Share.of (numbered 0 partitions leaders) answer.1).places.map (·.1)) =
        (Share.divide (numbered 0 partitions leaders)).map (·.places.map (·.1)) := by
    rw [Share.divide_eq, map_leader_numbered hlength, ← map_fst_hear topic partitions leaders state]
    simp
  have hflat : rows.flatten.map (·.1) =
      ((Share.divide (numbered 0 partitions leaders)).flatMap (·.places)).map (·.1) := by
    rw [List.map_flatten, hplaces, hshares, List.map_flatMap, List.flatMap]
  exact hflat ▸ positions_divide_perm hlength

/-- If every share succeeds, each place of the table holds the record of its position. -/
theorem exists_recordAt (hlength : leaders.length = partitions.length)
    {rows : List (List (Nat × Progress))}
    (hrows : (((hear topic partitions leaders).run state).1).map
      (fun answer => (outcomeOf topic (numbered 0 partitions leaders) answer).value) =
        rows.map .ok)
    {place : Nat} {partition : Int32} {leader : Broker σ}
    (hpartition : partitions[place]? = some partition) (hleader : leaders[place]? = some leader) :
    ∃ record, RecordAt topic leaders ((hear topic partitions leaders).run state).1
        partition leader record ∧
      (placeRows partitions.length rows.flatten)[place]? = some record := by
  obtain ⟨broker, hbroker, hid⟩ : ∃ broker ∈ firstsBy Broker.id leaders, broker.id = leader.id :=
    exists_mem_firstsBy (List.mem_of_getElem? hleader)
  have hfound : leaders.find? (·.id = leader.id) = some broker := hid ▸ mem_firstsBy.mp hbroker
  obtain ⟨replies, hheard⟩ := exists_heard hbroker state
  obtain ⟨shareRows, hmem, houtcome⟩ := mem_of_successes hrows hheard
  obtain ⟨sooner, later, oldest, newest, rfl, hplaces⟩ := Share.outcome_eq_ok.mp houtcome
  have hplace : (place, partition) ∈ (Share.of (numbered 0 partitions leaders) broker).places :=
    mem_places_of_numbered.mpr ⟨leader, hpartition, hleader, hid.symm⟩
  obtain ⟨row, hrow, hread⟩ := mem_of_successes hplaces hplace
  obtain ⟨first, last, hfirst, hlast, rfl⟩ := Share.row_eq_ok.mp hread
  refine ⟨_, ⟨broker, _, hfound, hheard, _, _, _, _, _, _, rfl, hfirst, hlast, rfl⟩, ?_⟩
  have hflat := List.mem_flatten_of_mem hmem hrow
  have hnodup := (positions_of_rows hlength hrows).nodup_iff.mpr List.nodup_range
  exact placeRows_of_mem hnodup hflat (List.getElem?_eq_some_iff.mp hpartition).1

/-- If every position has a record in the reference, every share succeeds. -/
theorem exists_rows (hlength : leaders.length = partitions.length)
    (hrecords : ∀ (place : Nat) partition leader, partitions[place]? = some partition →
      leaders[place]? = some leader → ∃ record,
        RecordAt topic leaders ((hear topic partitions leaders).run state).1
          partition leader record) :
    ∃ rows : List (List (Nat × Progress)), (((hear topic partitions leaders).run state).1).map
      (fun answer => (outcomeOf topic (numbered 0 partitions leaders) answer).value) =
        rows.map .ok := by
  refine exists_successes ?_
  rintro ⟨broker, replies⟩ hheard
  -- Every partition of the share has its record in these very replies.
  have hread : ∀ (place : Nat) partition leader, partitions[place]? = some partition →
      leaders[place]? = some leader → leader.id = broker.id →
        ∃ record, ReadFrom topic partition replies record := by
    intro place partition leader hpartition hleader hid
    obtain ⟨record, first, answer, hfound, hanswer, hread⟩ :=
      hrecords place partition leader hpartition hleader
    have hfirst : first.id = broker.id := by
      rw [← hid]
      simpa using List.find?_some hfound
    cases hear_unique hanswer hheard hfirst
    exact ⟨record, hread⟩
  have hbroker : broker ∈ firstsBy Broker.id leaders := by
    rw [← map_fst_hear topic partitions leaders state]
    exact List.mem_map_of_mem hheard
  obtain ⟨place, hleader⟩ := List.mem_iff_getElem?.mp (mem_of_mem_firstsBy hbroker)
  obtain ⟨partition, hpartition⟩ : ∃ partition, partitions[place]? = some partition := by
    have hin := (List.getElem?_eq_some_iff.mp hleader).1
    exact ⟨_, List.getElem?_eq_getElem (hlength ▸ hin)⟩
  obtain ⟨_, sooner, later, oldest, newest, _, _, rfl, -⟩ :=
    hread place partition broker hpartition hleader rfl
  obtain ⟨rows, hrows⟩ : ∃ rows : List (Nat × Progress),
      (Share.of (numbered 0 partitions leaders) broker).places.map
        (Share.row topic (Share.of (numbered 0 partitions leaders) broker) oldest newest) =
          rows.map .ok := by
    refine exists_successes ?_
    rintro ⟨index, partition⟩ hplace
    obtain ⟨leader, hpartition, hleader, hid⟩ := mem_places_of_numbered.mp hplace
    obtain ⟨_, _, _, _, _, first, last, hreplies, hfirst, hlast, -⟩ :=
      hread index partition leader hpartition hleader hid
    cases hreplies
    exact ⟨_, Share.row_eq_ok.mpr ⟨first, last, hfirst, hlast, rfl⟩⟩
  exact ⟨rows, Share.outcome_eq_ok.mpr ⟨_, _, _, _, rfl, hrows⟩⟩

end Position

theorem length_of_lookups {cluster : Cluster σ} {topic : String} {partitions : List Int32}
    {leaders : List (Broker σ)} {state reached : σ}
    (hleaders : (partitions.mapM (cluster.leader topic)).run state = (leaders.map .ok, reached)) :
    leaders.length = partitions.length := by
  rw [← length_mapM_run (cluster.leader topic) partitions state, hleaders, List.length_map]

/-- A survey that succeeds has found the partitions of its topic and every leader. -/
theorem exists_leaders_of_survey {cluster : Cluster σ} {topic : String} {state : σ}
    {records : List Progress} (hok : ((survey cluster topic).runFrom state).1 = .ok records) :
    ∃ partitions listed, ∃ leaders : List (Broker σ), ∃ found,
      (cluster.partitions topic).run state = (.ok partitions, listed) ∧
      (partitions.mapM (cluster.leader topic)).run listed = (leaders.map .ok, found) := by
  rw [survey_run] at hok
  rcases hlisted : (cluster.partitions topic).run state with ⟨answer, listed⟩
  rw [hlisted] at hok
  cases answer with
  | error cause => cases hok
  | ok partitions =>
      rcases hfound : (findLeaders cluster topic 0 partitions).runFrom listed with ⟨leds, found⟩
      simp only [hfound] at hok
      cases leds with
      | error failure => cases hok
      | ok leds =>
          obtain ⟨leaders, hleaders, -⟩ := findLeaders_eq_ok.mp hfound
          exact ⟨partitions, listed, leaders, found, rfl, hleaders⟩

/-- With every leader found, a survey succeeds exactly with the records of the reference. -/
theorem survey_eq_ok_of_leaders {cluster : Cluster σ} {topic : String} {state listed found : σ}
    {partitions : List Int32} {leaders : List (Broker σ)}
    (hlisted : (cluster.partitions topic).run state = (.ok partitions, listed))
    (hleaders : (partitions.mapM (cluster.leader topic)).run listed = (leaders.map .ok, found))
    {records : List Progress} :
    ((survey cluster topic).runFrom state).1 = .ok records ↔
      records.length = partitions.length ∧
        ∀ (place : Nat) partition leader,
          partitions[place]? = some partition → leaders[place]? = some leader →
            ∃ record, records[place]? = some record ∧
              RecordAt topic leaders ((hear topic partitions leaders).run found).1
                partition leader record := by
  have hlengths := length_of_lookups hleaders
  have hfound : (findLeaders cluster topic 0 partitions).runFrom listed =
      (.ok (numbered 0 partitions leaders), found) := findLeaders_eq_ok.mpr ⟨leaders, hleaders, rfl⟩
  simp only [survey_run, hlisted, hfound, surveyShares_run topic hlengths, map_eq_ok,
    Timed.settle_eq_ok, List.map_map]
  constructor
  · rintro ⟨rows, hrows, rfl⟩
    refine ⟨by simp, fun place partition leader hpartition hleader => ?_⟩
    obtain ⟨record, hrecord, hplaced⟩ := exists_recordAt hlengths hrows hpartition hleader
    exact ⟨record, hplaced, hrecord⟩
  · rintro ⟨hlength, hrecords⟩
    obtain ⟨rows, hrows⟩ := exists_rows hlengths fun place partition leader hpartition hleader =>
      (hrecords place partition leader hpartition hleader).imp fun _ hrecord => hrecord.2
    refine ⟨rows, hrows, List.ext_getElem? fun place => ?_⟩
    -- Both tables have the records of the reference, and there is only one.
    by_cases hplace : place < partitions.length
    · have hpartition := List.getElem?_eq_getElem hplace
      have hleader := List.getElem?_eq_getElem (hlengths.symm ▸ hplace)
      obtain ⟨record, hplaced, hrecord⟩ := hrecords place _ _ hpartition hleader
      obtain ⟨written, hwritten, hplaced'⟩ := exists_recordAt hlengths hrows hpartition hleader
      rw [hplaced, hplaced', hrecord.unique hwritten]
    · rw [List.getElem?_eq_none (by simpa using hplace), List.getElem?_eq_none (by omega)]

/-- A survey succeeds exactly with the records of the reference. So it needs every leader, both
replies of the first broker of every identifier and an offset at either end for every partition,
and nothing else; it does not matter when the replies arrive, and no place is left unwritten. -/
theorem survey_eq_ok_iff_reference (cluster : Cluster σ) (topic : String) (state : σ)
    (records : List Progress) :
    ((survey cluster topic).runFrom state).1 = .ok records ↔
      ∃ partitions listed leaders found,
        (cluster.partitions topic).run state = (.ok partitions, listed) ∧
        (partitions.mapM (cluster.leader topic)).run listed = (leaders.map .ok, found) ∧
        records.length = partitions.length ∧
        ∀ (place : Nat) partition leader,
          partitions[place]? = some partition → leaders[place]? = some leader →
            ∃ record, records[place]? = some record ∧
              RecordAt topic leaders ((hear topic partitions leaders).run found).1
                partition leader record := by
  constructor
  · intro hok
    obtain ⟨partitions, listed, leaders, found, hlisted, hleaders⟩ := exists_leaders_of_survey hok
    exact ⟨partitions, listed, leaders, found, hlisted, hleaders,
      (survey_eq_ok_of_leaders hlisted hleaders).mp hok⟩
  · rintro ⟨partitions, listed, leaders, found, hlisted, hleaders, hreference⟩
    exact (survey_eq_ok_of_leaders hlisted hleaders).mpr hreference

end ConsumerGroups.Range
