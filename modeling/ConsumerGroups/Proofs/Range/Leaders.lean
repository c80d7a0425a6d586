import ConsumerGroups.Proofs.Range.Share
import ConsumerGroups.Proofs.Results
import ConsumerGroups.Range.Survey

/-! # The leaders that are found

The leaders of a topic's partitions are asked for one after another. If all are found, every
partition stands beside its leader and its place in the list.
-/

namespace ConsumerGroups.Range

open Results

variable {σ : Type}

/-- Partitions beside their leaders, numbered from the given place on. -/
def numbered : Nat → List Int32 → List (Broker σ) → List (Led σ)
  | index, partition :: partitions, leader :: leaders =>
    { index, partition, leader } :: numbered (index + 1) partitions leaders
  | _, _, _ => []

/-- The partitions that stand beside the given identifier of a leader, in order. -/
def ledBy (id : Int32) (partitions leaders : List Int32) : List Int32 :=
  ((partitions.zip leaders).filter (·.2 = id)).map (·.1)

theorem mem_ledBy {id partition : Int32} {partitions leaders : List Int32} {place : Nat}
    (hpartition : partitions[place]? = some partition) (hleader : leaders[place]? = some id) :
    partition ∈ ledBy id partitions leaders := by
  have hzip : (partition, id) ∈ partitions.zip leaders :=
    List.mem_iff_getElem?.mpr ⟨place, List.getElem?_zip_eq_some.mpr ⟨hpartition, hleader⟩⟩
  exact List.mem_map.mpr ⟨_, List.mem_filter.mpr ⟨hzip, by simp⟩, rfl⟩

theorem mem_numbered {start : Nat} {partitions : List Int32} {leaders : List (Broker σ)}
    {led : Led σ} :
    led ∈ numbered start partitions leaders ↔
      ∃ offset, led.index = start + offset ∧ partitions[offset]? = some led.partition ∧
        leaders[offset]? = some led.leader := by
  induction partitions generalizing start leaders with
  | nil => simp [numbered]
  | cons partition partitions ih =>
      cases leaders with
      | nil => simp [numbered]
      | cons leader leaders =>
          rw [numbered, List.mem_cons, ih]
          constructor
          · rintro (rfl | ⟨offset, hindex, hpartition, hleader⟩)
            · exact ⟨0, by simp⟩
            · exact ⟨offset + 1, by omega, by simpa using hpartition, by simpa using hleader⟩
          · rintro ⟨offset, hindex, hpartition, hleader⟩
            cases offset with
            | zero =>
                left
                cases led
                simp_all
            | succ offset =>
                exact .inr ⟨offset, by omega, by simpa using hpartition, by simpa using hleader⟩

theorem map_leader_numbered {partitions : List Int32} {leaders : List (Broker σ)}
    (hlength : leaders.length = partitions.length) (start : Nat) :
    (numbered start partitions leaders).map Led.leader = leaders := by
  induction partitions generalizing start leaders with
  | nil => simp_all [numbered]
  | cons partition partitions ih =>
      cases leaders with
      | nil => simp at hlength
      | cons leader leaders => simp [numbered, ih (by simpa using hlength)]

theorem map_index_numbered {partitions : List Int32} {leaders : List (Broker σ)}
    (hlength : leaders.length = partitions.length) (start : Nat) :
    (numbered start partitions leaders).map Led.index = List.range' start partitions.length := by
  induction partitions generalizing start leaders with
  | nil => simp [numbered]
  | cons partition partitions ih =>
      cases leaders with
      | nil => simp at hlength
      | cons leader leaders => simp [numbered, List.range'_succ, ih (by simpa using hlength)]

/-- The places of all shares are the positions of the list, each once. -/
theorem positions_divide_perm {partitions : List Int32} {leaders : List (Broker σ)}
    (hlength : leaders.length = partitions.length) :
    (((Share.divide (numbered 0 partitions leaders)).flatMap (·.places)).map (·.1)).Perm
      (List.range partitions.length) := by
  have hplaces := (Share.divide_places_perm (numbered 0 partitions leaders)).map (·.1)
  have hindices : ((numbered 0 partitions leaders).map Led.place).map (·.1) =
      List.range partitions.length := by
    rw [List.map_map, List.range_eq_range', ← map_index_numbered hlength]
    rfl
  rwa [hindices] at hplaces

theorem partitions_of_numbered (start : Nat) (partitions : List Int32)
    (leaders : List (Broker σ)) (broker : Broker σ) :
    (Share.of (numbered start partitions leaders) broker).partitions =
      ledBy broker.id partitions (leaders.map Broker.id) := by
  induction partitions generalizing start leaders with
  | nil => simp [numbered, Share.of, Share.partitions, ledBy]
  | cons partition partitions ih =>
      cases leaders with
      | nil => simp [numbered, Share.of, Share.partitions, ledBy]
      | cons leader leaders =>
          have htail := ih (start + 1) leaders
          simp only [Share.of, Share.partitions, ledBy, List.map_map] at htail ⊢
          by_cases hid : leader.id = broker.id <;>
            simp [numbered, hid, htail, Led.place]

/-- Which places a share holds depends on the identifiers of the leaders alone. -/
theorem places_of_numbered_congr {τ : Type} {leaders : List (Broker σ)}
    {others : List (Broker τ)} (hids : leaders.map Broker.id = others.map Broker.id)
    {broker : Broker σ} {other : Broker τ} (hid : broker.id = other.id) (start : Nat)
    (partitions : List Int32) :
    (Share.of (numbered start partitions leaders) broker).places =
      (Share.of (numbered start partitions others) other).places := by
  induction partitions generalizing start leaders others with
  | nil => rfl
  | cons partition partitions ih =>
      cases leaders with
      | nil =>
          obtain rfl : others = [] := by simpa using hids.symm
          rfl
      | cons leader leaders =>
          cases others with
          | nil => simp at hids
          | cons first others =>
              obtain ⟨hfirst, hrest⟩ := List.cons.inj hids
              have htail := ih hrest (start + 1)
              simp only [Share.of] at htail ⊢
              by_cases hled : first.id = other.id <;>
                simp [numbered, hfirst, hid, hled, Led.place] <;> simpa [hid] using htail

/-- The places of a broker's share are the positions whose leaders have its identifier. -/
theorem mem_places_of_numbered {partitions : List Int32} {leaders : List (Broker σ)}
    {broker : Broker σ} {place : Nat} {partition : Int32} :
    (place, partition) ∈ (Share.of (numbered 0 partitions leaders) broker).places ↔
      ∃ leader, partitions[place]? = some partition ∧ leaders[place]? = some leader ∧
        leader.id = broker.id := by
  simp only [Share.of, List.mem_map, List.mem_filter, mem_numbered, decide_eq_true_eq]
  constructor
  · rintro ⟨⟨index, other, leader⟩, ⟨⟨offset, hindex, hpartition, hleader⟩, hid⟩, hplace⟩
    obtain rfl : index = offset := by simpa using hindex
    cases hplace
    exact ⟨leader, hpartition, hleader, hid⟩
  · rintro ⟨leader, hpartition, hleader, hid⟩
    exact ⟨⟨place, partition, leader⟩, ⟨⟨place, by simp, hpartition, hleader⟩, hid⟩, rfl⟩

/-- A search goes on after each leader found, and ends at the first lookup that fails. -/
theorem findLeaders_cons_run (cluster : Cluster σ) (topic : String) (start : Nat)
    (partition : Int32) (rest : List Int32) (state : σ) :
    (findLeaders cluster topic start (partition :: rest)).runFrom state =
      match (cluster.leader topic partition).run state with
      | (.error cause, reached) =>
        (.error (.connection (.partitionLeader partition) cause), reached)
      | (.ok leader, reached) =>
        match (findLeaders cluster topic (start + 1) rest).runFrom reached with
        | (.error failure, reached) => (.error failure, reached)
        | (.ok others, reached) =>
          (.ok ({ index := start, partition, leader } :: others), reached) := by
  rcases hanswer : (cluster.leader topic partition).run state with ⟨answer, reached⟩
  have happlied : cluster.leader topic partition state = (answer, reached) := hanswer
  rw [findLeaders, Errand.runFrom_bind, Errand.runFrom_await, happlied]
  cases answer with
  | error cause => rfl
  | ok leader =>
      simp only [Except.mapError, Errand.runFrom_bind]
      rcases (findLeaders cluster topic (start + 1) rest).runFrom reached with ⟨others, reached⟩
      cases others <;> rfl

/-- The search for leaders succeeds exactly if every lookup does. -/
theorem findLeaders_eq_ok {cluster : Cluster σ} {topic : String} {start : Nat}
    {partitions : List Int32} {state reached : σ} {leds : List (Led σ)} :
    (findLeaders cluster topic start partitions).runFrom state = (.ok leds, reached) ↔
      ∃ leaders, (partitions.mapM (cluster.leader topic)).run state = (leaders.map .ok, reached) ∧
        leds = numbered start partitions leaders := by
  induction partitions generalizing start state leds with
  | nil =>
      rw [findLeaders, Errand.runFrom_pure]
      constructor
      · rintro ⟨⟩
        exact ⟨[], rfl, rfl⟩
      · rintro ⟨leaders, hrun, rfl⟩
        obtain ⟨-, rfl⟩ := Prod.mk.inj hrun
        rfl
  | cons partition rest ih =>
      -- Both look up this partition first; only the search stops if that fails.
      rw [findLeaders_cons_run, mapM_cons_run]
      rcases (cluster.leader topic partition).run state with ⟨answer, middle⟩
      constructor
      · intro hfound
        cases answer with
        | error cause => simp at hfound
        | ok leader =>
            rcases hrest : (findLeaders cluster topic (start + 1) rest).runFrom middle with
              ⟨result, final⟩
            cases result with
            | error failure => simp [hrest] at hfound
            | ok others =>
                simp only [hrest, Prod.mk.injEq, Except.ok.injEq] at hfound
                obtain ⟨rfl, rfl⟩ := hfound
                obtain ⟨leaders, hrun, rfl⟩ := ih.mp hrest
                exact ⟨leader :: leaders, by simp [hrun], rfl⟩
      · rintro ⟨leaders, hrun, rfl⟩
        obtain ⟨hanswers, hreached⟩ := Prod.mk.inj hrun
        cases leaders with
        | nil => simp at hanswers
        | cons leader leaders =>
            obtain ⟨hfirst, hleaders⟩ := List.cons.inj hanswers
            obtain rfl : answer = .ok leader := hfirst
            have hrest : (findLeaders cluster topic (start + 1) rest).runFrom middle =
                (.ok (numbered (start + 1) rest leaders), reached) :=
              ih.mpr ⟨leaders, Prod.ext hleaders hreached, rfl⟩
            simp only [hrest]
            rfl

end ConsumerGroups.Range
