import ConsumerGroups.Proofs.Range.Firsts
import ConsumerGroups.Range.Share

/-! # What dividing partitions among their leaders comes to

For every identifier of a leader the first broker that has it gets a share. The share holds all
places whose leader has the identifier, in the order of the topic's list, whatever comes between
them.
-/

namespace ConsumerGroups.Range

variable {σ : Type}

/-- A partition's place in the list and the partition. -/
def Led.place (led : Led σ) : Nat × Int32 :=
  (led.index, led.partition)

/-- The share of the partitions whose leader has the identifier of a broker. -/
def Share.of (leds : List (Led σ)) (broker : Broker σ) : Share σ :=
  { broker, places := (leds.filter (·.leader.id = broker.id)).map Led.place }

/-- A share is not touched by partitions that other brokers lead. -/
theorem Share.of_filter_ne (leds : List (Led σ)) {broker : Broker σ} {id : Int32}
    (hid : broker.id ≠ id) : Share.of (leds.filter (·.leader.id ≠ id)) broker = Share.of leds broker := by
  unfold Share.of
  rw [List.filter_filter]
  congr 2
  apply List.filter_congr
  intro led _
  by_cases hled : led.leader.id = broker.id <;> simp [hled, hid]

/-- Dividing gives one share to each first broker of an identifier. -/
theorem Share.divide_eq (leds : List (Led σ)) :
    Share.divide leds =
      (firstsBy Broker.id (leds.map Led.leader)).map (Share.of leds) := by
  induction leds using Share.divide.induct with
  | case1 => simp [Share.divide]
  | case2 first rest same ih =>
      have hothers : rest.filter (fun led => !same led) =
          rest.filter (·.leader.id ≠ first.leader.id) := by
        simp [same]
      have hleaders : firstsBy Broker.id ((rest.filter (·.leader.id ≠ first.leader.id)).map
          Led.leader) = (firstsBy Broker.id (rest.map Led.leader)).filter
            (·.id ≠ first.leader.id) := by
        rw [← firstsBy_filter_ne, List.filter_map]
        rfl
      simp only [List.unattach_filter, List.unattach_attach, hothers, hleaders] at ih
      rw [Share.divide, hothers, ih, List.map_cons (f := Led.leader), firstsBy, List.map_cons]
      congr 1
      · simp [Share.of, Led.place]
      · -- The brokers left have other identifiers, so that their shares can do without the first.
        apply List.map_congr_left
        intro broker hbroker
        have hne : broker.id ≠ first.leader.id := by simpa using (List.mem_filter.mp hbroker).2
        rw [Share.of_filter_ne rest hne]
        simp [Share.of, Ne.symm hne]

/-- Dividing partitions loses none of them and gives none out twice. -/
theorem Share.divide_places_perm (leds : List (Led σ)) :
    ((Share.divide leds).flatMap (·.places)).Perm (leds.map Led.place) := by
  induction leds using Share.divide.induct with
  | case1 => simp [Share.divide]
  | case2 first rest same ih =>
      simp only [List.unattach_filter, List.unattach_attach] at ih
      rw [Share.divide, List.flatMap_cons, List.map_cons (f := Led.place)]
      -- Taking out the first share parts the rest in two, and loses nothing.
      refine (ih.append_left _).trans ?_
      rw [List.map_cons, List.cons_append]
      refine List.Perm.cons _ ?_
      change ((rest.filter same).map Led.place ++ _).Perm _
      rw [← List.map_append]
      exact (List.filter_append_perm same rest).map Led.place

end ConsumerGroups.Range
