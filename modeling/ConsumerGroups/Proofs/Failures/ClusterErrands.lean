import ConsumerGroups.Console
import ConsumerGroups.Proofs.Failures.Fanout

/-! # What errands on the cluster account for

An errand on the cluster waits for one answer after the other, but for its requests to the
leaders, and reads a response before it goes on. It passes over nothing, so that the first answer
from which it cannot go on ends it.
-/

namespace ConsumerGroups

open Message Range Results

variable {σ α β : Type} {chroot : String} {log : List Exchange}

/-- A recorded action that makes one exchange on the cluster and hands on what was answered. An
exchange that breaks does so in the given context. -/
structure Relays (chroot : String) (context : Context) (exchange : Reply α → Exchange)
    (wrap : α → β) (reply : StateM (Recorded σ) (Reply β)) : Prop where
  run : ∀ recorded, ∃ answer state,
    reply.run recorded = (answer.map wrap, ⟨state, recorded.log ++ [exchange answer]⟩)
  onCluster : ∀ answer, ¬(exchange answer).OnRegistry
  faults : ∀ cause, (exchange (.error cause)).Faults chroot context cause

theorem call_hands_on (exchange : Reply α → Exchange) (action : StateM σ (Reply α))
    (recorded : Recorded σ) :
    ∃ answer state, (Recorded.call exchange action).run recorded =
      (answer.map id, ⟨state, recorded.log ++ [exchange answer]⟩) := by
  refine ⟨(action.run recorded.state).1, (action.run recorded.state).2, ?_⟩
  rw [except_map_id]
  rfl

/-- Waiting for the answer to a call and reading it accounts for the call, if the reader fails
exactly as the answer explains. -/
theorem Relays.accounts_read {γ : Type} {context : Context} {exchange : Reply α → Exchange}
    {wrap : α → β} {reply : StateM (Recorded σ) (Reply β)} {read : β → Except Failure γ}
    {after : γ → List Exchange → Prop} (hreply : Relays chroot context exchange wrap reply)
    (hfine : ∀ inner, ¬(exchange (.ok inner)).Errs)
    (hread : ∀ inner failure, read (wrap inner) = .error failure ↔ failure.outer = [] ∧
      (exchange (.ok inner)).Explains chroot failure.context failure.reason)
    (hafter : ∀ inner value, read (wrap inner) = .ok value →
      after value (log ++ [exchange (.ok inner)])) :
    Accounts (.cluster chroot) log
      (Errand.await context reply >>= fun value => Errand.ofExcept (read value)) after := by
  apply Accounts.ofExchange
  intro state
  obtain ⟨answer, reached, hmade⟩ := hreply.run ⟨state, log⟩
  have hrun : (Errand.await context reply >>= fun value => Errand.ofExcept (read value)).runFrom
      ⟨state, log⟩ = ((answer.mapError (Failure.connection context)).bind fun inner =>
        read (wrap inner), ⟨reached, log ++ [exchange answer]⟩) := by
    rw [Errand.runFrom_await_bind, hmade]
    cases answer <;> rfl
  refine ⟨_, exchange answer, reached, hrun, hreply.onCluster answer, ?_, ?_⟩
  · intro value hvalue
    obtain ⟨inner, hanswer, hvalue⟩ := bind_eq_ok.mp hvalue
    obtain rfl := mapError_eq_ok.mp hanswer
    have hsound := Exchange.not_spoiled_of_read (hfine inner) (hread inner) hvalue
    exact ⟨fun hspoiled => absurd hspoiled hsound, hafter inner value hvalue⟩
  · intro failure hfailure
    cases answer with
    | ok inner => exact ⟨id, ((hread inner failure).mp hfailure).2⟩
    | error cause =>
        cases hfailure
        exact ⟨id, hreply.faults cause⟩

/-- Waiting for an answer that is not looked into accounts for the call. -/
theorem Relays.accounts {context : Context} {exchange : Reply α → Exchange} {wrap : α → β}
    {reply : StateM (Recorded σ) (Reply β)} (hreply : Relays chroot context exchange wrap reply)
    (hplain : ∀ inner, ¬(exchange (.ok inner)).LookedInto)
    (hfine : ∀ inner, ¬(exchange (.ok inner)).Errs) :
    Accounts (.cluster chroot) log (Errand.await context reply)
      fun value _ => ∃ inner, value = wrap inner := by
  have hread : Accounts (.cluster chroot) log
      (Errand.await context reply >>= fun value => Errand.ofExcept (.ok value))
      fun value _ => ∃ inner, value = wrap inner := by
    refine hreply.accounts_read hfine (fun inner failure => ⟨nofun, fun hexplains => ?_⟩)
      fun inner value hvalue => ⟨inner, (Except.ok.inj hvalue).symm⟩
    have hspoiled : (exchange (.ok inner)).Spoiled chroot := .inr ⟨_, _, hexplains.2⟩
    exact absurd (hspoiled.errs (hplain inner)) (hfine inner)
  have hpure : (fun value : β => (Errand.ofExcept (.ok value) : Errand (Recorded σ) β)) = pure :=
    rfl
  rwa [hpure, bind_pure] at hread

variable (cluster : Cluster σ) (coordinator : Coordinator σ) (group topic : String)

theorem relays_partitions :
    Relays chroot .topicPartitions (.partitions topic) id (cluster.recorded.partitions topic) where
  run := call_hands_on _ _
  onCluster _ := id
  faults _ := .partitions

theorem relays_leader (partition : Int32) :
    Relays chroot (.partitionLeader partition)
      (fun answer => .leader topic partition (answer.map Broker.id)) Broker.recorded
      (cluster.recorded.leader topic partition) where
  run recorded := ⟨((cluster.leader topic partition).run recorded.state).1, _, rfl⟩
  onCluster _ := id
  faults _ := .leader

theorem relays_coordinator :
    Relays chroot .groupCoordinator (fun answer => .coordinator group (answer.map Coordinator.id))
      Coordinator.recorded (cluster.recorded.coordinator group) where
  run recorded := ⟨((cluster.coordinator group).run recorded.state).1, _, rfl⟩
  onCluster _ := id
  faults _ := .coordinator

theorem accounts_coordinator :
    Accounts (.cluster chroot) log
      (Errand.await .groupCoordinator (cluster.recorded.coordinator group))
      fun found _ => ∃ inner : Coordinator σ, found = inner.recorded :=
  (relays_coordinator cluster group).accounts (fun _ => id) (by rintro _ ⟨_, ⟨⟩⟩)

theorem relays_fetch (version : Int16) (request : OffsetFetch.Request) :
    Relays chroot .committedMarks (.offsetFetch coordinator.id version request) id
      (coordinator.recorded.fetch version request) where
  run := call_hands_on _ _
  onCluster _ := id
  faults _ := .offsetFetch

theorem relays_commit (version : Int16) (request : OffsetCommit.Request) :
    Relays chroot .commitRequest (.offsetCommit coordinator.id version request) id
      (coordinator.recorded.commit version request) where
  run := call_hands_on _ _
  onCluster _ := id
  faults _ := .offsetCommit

namespace Range

theorem accounts_findLeaders (start : Nat) (partitions : List Int32) :
    Accounts (.cluster chroot) log (findLeaders cluster.recorded topic start partitions)
      fun leds _ => ∃ inner : List (Led σ), leds = inner.map Led.recorded := by
  induction partitions generalizing start log with
  | nil => exact .pure ⟨[], rfl⟩
  | cons partition rest ih =>
      rw [findLeaders]
      refine ((relays_leader cluster topic partition).accounts (fun _ => id)
        (by rintro _ ⟨_, ⟨⟩⟩)).bind ?_
      rintro _ more ⟨leader, rfl⟩
      refine (ih (start + 1)).bind ?_
      rintro _ more ⟨others, rfl⟩
      exact .pure ⟨{ index := start, partition, leader } :: others, rfl⟩

theorem accounts_survey :
    Accounts (.cluster chroot) log (survey cluster.recorded topic) fun _ _ => True := by
  rw [survey]
  refine ((relays_partitions cluster topic).accounts (fun _ => id) (by rintro _ ⟨_, ⟨⟩⟩)).bind ?_
  rintro partitions more ⟨_, rfl⟩
  split
  · exact .pure trivial
  · refine (accounts_findLeaders cluster topic 0 partitions).bind ?_
    rintro _ more ⟨leds, rfl⟩
    rw [Share.divide_recorded]
    exact accounts_surveyShares more _ _

end Range

namespace Commitment

theorem accounts_fetch (partitions : List Int32) :
    Accounts (.cluster chroot) log (fetch cluster.recorded group topic partitions)
      fun _ _ => True := by
  rw [fetch]
  refine (accounts_coordinator cluster group).bind ?_
  rintro _ more ⟨coordinator, rfl⟩
  exact (relays_fetch coordinator _ _).accounts_read (by rintro _ ⟨_, ⟨⟩⟩)
    (fun response failure => Exchange.marksOf_eq_error_iff) fun _ _ _ => trivial

theorem accounts_commit (batch : List Progress) :
    Accounts (.cluster chroot) log (commit cluster.recorded group topic batch)
      fun _ _ => True := by
  rw [commit]
  refine (accounts_coordinator cluster group).bind ?_
  rintro _ more ⟨coordinator, rfl⟩
  split
  · exact .pure trivial
  · exact (relays_commit coordinator _ _).accounts_read (by rintro _ ⟨_, ⟨⟩⟩)
      (fun response failure => Exchange.acknowledged_eq_error_iff) fun _ _ _ => trivial

end Commitment

theorem Console.accounts_progressOn :
    Accounts (.cluster chroot) log (progressOn cluster.recorded group topic) fun _ _ => True := by
  rw [progressOn]
  refine (accounts_survey cluster topic).bind fun ranges more _ => ?_
  split
  · exact .pure trivial
  · exact (Commitment.accounts_fetch cluster group topic _).bind fun marks more _ => .pure trivial

end ConsumerGroups
