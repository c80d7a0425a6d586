import ConsumerGroups.Proofs.Failures.Accounts
import ConsumerGroups.Proofs.Ownership.Course

/-! # What scans of the registry account for

A scan of one group takes a listing that finds no node for an answer about the subscription, and
passes over nothing. Its course tells what ended it: a name that is no partition does, unless a node
that is listed before it cannot be read. A scan of all groups passes over listings that find no
node, and over nothing else; so it never fails because a subscription does not exist.
-/

namespace ConsumerGroups

open Results

namespace Terms

/-- The scan of one group lists the owners of the topic in the group, and passes over nothing. -/
def scan (chroot group topic : String) : Terms where
  chroot := chroot
  allows exchange := exchange.OnRegistry ∧ ∀ path answer, exchange = .children path answer →
    path = NodePath.owners chroot group topic
  passes _ := False

/-- The scan of all groups passes over the owners of topics that groups do not have. -/
def scans (chroot : String) : Terms where
  chroot := chroot
  allows exchange := exchange.OnRegistry
  passes exchange := ∃ context, exchange.Misses chroot context

/-- Neither groups that are not found nor a listing that breaks are passed over. -/
theorem scans_keeps {chroot path : String} {fault : RegistryFault}
    (hfault : path = NodePath.groups chroot ∨ ∃ cause, fault = .broken cause) :
    ¬(scans chroot).passes (.children path (.error fault)) := by
  rintro ⟨context, hmisses⟩
  obtain ⟨-, group, topic, hsame⟩ := hmisses.eq
  injection hsame with hpath hanswer
  injection hanswer with habsent
  rcases hfault with rfl | ⟨cause, rfl⟩
  · exact Exchange.groups_ne_owners chroot group topic hpath
  · cases habsent

end Terms

namespace Ownership

variable {σ : Type} {log calls : List Exchange} {registry : Registry σ}
  {chroot group topic : String} {start reached : σ} {ownership : Ownership} {failure : Failure}

/-! ## The course of one scan -/

theorem not_spoiled_readCall (node : ReadNode) :
    ¬(readCall chroot group topic node).Spoiled chroot := by
  intro hspoiled
  obtain ⟨fault, ⟨⟩⟩ := hspoiled.errs id

/-- A listing in which every name is a partition is not to blame for anything. -/
theorem not_spoiled_listCall {names : List String}
    (hnames : ∀ name ∈ names, Text.readInt32? name ≠ none) :
    ¬(listCall chroot group topic (.ok names)).Spoiled chroot := by
  rintro (⟨fault, ⟨⟩⟩ | ⟨context, reason, hexplains⟩)
  unfold listCall at hexplains
  generalize NodePath.owners chroot group topic = path at hexplains
  cases reason with
  | protocol =>
      cases hexplains with
      | name _ hname => exact hnames _ (by simp) hname
  | _ => cases hexplains

theorem ReadsEach.readable {state last : σ} {nodes : List ReadNode}
    (hreads : ReadsEach registry chroot group topic state nodes last) :
    ∀ name ∈ nodes.map (·.1), Text.readInt32? name ≠ none := by
  intro name hname
  obtain ⟨node, hnode, rfl⟩ := List.mem_map.mp hname
  obtain ⟨partition, hpartition⟩ := hreads.names node hnode
  exact Option.ne_none_iff_exists'.mpr ⟨partition, hpartition⟩

/-- A scan calls the registry alone, and lists the owners alone. -/
theorem Course.allowed {result : Except Failure Ownership}
    (hcourse : Course registry chroot group topic start result reached calls) :
    ∀ exchange ∈ calls, (Terms.scan chroot group topic).allows exchange := by
  have hlist (listing : Except RegistryFault (List String)) :
      (Terms.scan chroot group topic).allows (listCall chroot group topic listing) := by
    refine ⟨trivial, ?_⟩
    rintro path answer ⟨⟩
    rfl
  have hread (path : String) (answer : Except RegistryFault (List UInt8)) :
      (Terms.scan chroot group topic).allows (.read path answer) := ⟨trivial, nofun⟩
  have hreads (nodes : List ReadNode) : ∀ exchange ∈ nodes.map (readCall chroot group topic),
      (Terms.scan chroot group topic).allows exchange := by
    intro exchange hexchange
    obtain ⟨node, -, rfl⟩ := List.mem_map.mp hexchange
    exact hread _ _
  cases hcourse with
  | absent | unlisted => exact List.forall_mem_singleton.mpr (hlist _)
  | misnamed | complete => exact List.forall_mem_cons.mpr ⟨hlist _, hreads _⟩
  | unread =>
      rw [List.cons_append]
      refine List.forall_mem_cons.mpr ⟨hlist _, List.forall_mem_append.mpr ⟨hreads _, ?_⟩⟩
      exact List.forall_mem_singleton.mpr (hread _ _)

/-- A scan that comes to an ownership made no exchange that is to blame for anything. -/
theorem Course.not_spoiled
    (hcourse : Course registry chroot group topic start (.ok ownership) reached calls) :
    ∀ exchange ∈ calls, ¬exchange.Spoiled chroot := by
  cases hcourse with
  | complete hnodes _ =>
      obtain ⟨listed, -, hreads⟩ := hnodes
      refine List.forall_mem_cons.mpr ⟨not_spoiled_listCall hreads.readable, ?_⟩
      exact List.forall_mem_map.mpr fun node _ => not_spoiled_readCall node

/-- A scan that fails was ended by one of its exchanges. -/
theorem Course.exists_ender
    (hcourse : Course registry chroot group topic start (.error failure) reached calls) :
    ∃ ender, (Terms.scan chroot group topic).Ends calls failure ender := by
  cases hcourse with
  | absent => exact ⟨_, Terms.ends_singleton id Exchange.Misses.owners⟩
  | unlisted => exact ⟨_, Terms.ends_singleton id Exchange.Faults.owners⟩
  | misnamed _ hpassed hname =>
      refine ⟨_, List.mem_cons_self, id, Exchange.Lacks.name hpassed.readable hname, ?_⟩
      intro other hother hspoiled _
      rcases List.mem_cons.mp hother with rfl | hread
      · exact .inl rfl
      · obtain ⟨node, -, rfl⟩ := List.mem_map.mp hread
        exact absurd hspoiled (not_spoiled_readCall node)
  | @unread _ _ _ passed name later partition fault _ hpassed hname _ =>
      let ender : Exchange := .read (NodePath.owner chroot group topic name) (.error fault)
      have hexplains : ender.Explains chroot (fault.toFailure (.ownerNode partition)).context
          (fault.toFailure (.ownerNode partition)).reason := by
        cases fault with
        | absent => exact Exchange.Lacks.owner
        | broken cause => exact Exchange.Faults.owner hname
      refine ⟨ender, List.mem_append_right _ (List.mem_singleton_self _), id, hexplains, ?_⟩
      intro other hother hspoiled _
      rcases List.mem_append.mp hother with hbefore | hlast
      · rcases List.mem_cons.mp hbefore with rfl | hread
        · -- A name further down may be no partition, but is not looked at.
          exact .inr (.read hpassed.readable (Option.ne_none_iff_exists'.mpr ⟨partition, hname⟩))
        · obtain ⟨node, -, rfl⟩ := List.mem_map.mp hread
          exact absurd hspoiled (not_spoiled_readCall node)
      · exact .inl (List.mem_singleton.mp hlast).symm

/-- A scan that does not find the subscription has only made a listing that finds no node. -/
theorem Course.misses
    (hcourse : Course registry chroot group topic start (.error failure) reached calls)
    (hnotFound : failure.isNotFound = true) :
    ∀ exchange ∈ calls, ∃ context, exchange.Misses chroot context := by
  simp only [Failure.isNotFound, decide_eq_true_eq] at hnotFound
  cases hcourse with
  | absent => exact List.forall_mem_singleton.mpr ⟨_, .owners⟩
  | unlisted | misnamed => cases hnotFound
  | @unread _ _ _ _ _ _ _ fault => cases fault <;> cases hnotFound

/-- The scan of one group accounts for what it comes to. -/
theorem accounts_scan :
    Accounts (.scan chroot group topic) log (scan registry.recorded chroot group topic)
      fun _ _ => True := by
  apply Accounts.ofExchanges
  intro state
  obtain ⟨result, reached, calls, hcourse⟩ := exists_course registry chroot group topic state
  refine ⟨result, calls, reached, hcourse.run_from log, hcourse.allowed, ?_, ?_⟩
  · rintro ownership rfl
    exact ⟨fun exchange hexchange hspoiled =>
      absurd hspoiled (hcourse.not_spoiled exchange hexchange), trivial⟩
  · rintro failure rfl
    exact hcourse.exists_ender

/-! ## All groups -/

/-- What ends the scan of one group ends the scan of all groups, unless it is passed over. -/
theorem ends_scans {ender : Exchange}
    (hends : (Terms.scan chroot group topic).Ends calls failure ender)
    (hnotFound : failure.isNotFound = false) : (Terms.scans chroot).Ends calls failure ender := by
  refine ⟨hends.made, ?_, hends.explains, fun other hother hspoiled _ =>
    hends.first other hother hspoiled id⟩
  rintro ⟨context, hmisses⟩
  obtain ⟨-, group', topic', rfl⟩ := hmisses.eq
  have hreason := Exchange.Misses.reason_eq hends.explains
  simp [Failure.isNotFound, hreason] at hnotFound

/-- Adding one group runs the scan of the group, and passes over a subscription that does not
exist. -/
theorem scanGroup_run {τ : Type} (registry : Registry τ) (found : GroupOwnership) (state : τ) :
    (scanGroup registry chroot topic found group).runFrom state =
      match (scan registry chroot group topic).runFrom state with
      | (.ok ownership, reached) =>
        (.ok (if ownership.isEmpty then found else found.insert group ownership), reached)
      | (.error failure, reached) =>
        (if failure.isNotFound then .ok found else .error (failure.within (.groupData group)),
          reached) := by
  rw [scanGroup, Errand.runFrom_bind, Errand.runFrom_attempt]
  rcases (scan registry chroot group topic).runFrom state with ⟨failure | ownership, reached⟩
  · dsimp only
    split <;> rfl
  · rfl

/-- The scan of one group among all of them accounts for what it comes to. -/
theorem accounts_scanGroup (found : GroupOwnership) :
    Accounts (.scans chroot) log (scanGroup registry.recorded chroot topic found group)
      fun _ _ => True := by
  apply Accounts.ofExchanges
  intro state
  obtain ⟨result, reached, calls, hcourse⟩ := exists_course registry chroot group topic state
  have hallowed : ∀ exchange ∈ calls, (Terms.scans chroot).allows exchange :=
    fun exchange hexchange => (hcourse.allowed exchange hexchange).1
  rw [scanGroup_run, hcourse.run_from log]
  cases result with
  | ok ownership =>
      refine ⟨_, calls, reached, rfl, hallowed, fun value _ => ⟨?_, trivial⟩, nofun⟩
      exact fun exchange hexchange hspoiled =>
        absurd hspoiled (hcourse.not_spoiled exchange hexchange)
  | error failure =>
      refine ⟨_, calls, reached, rfl, hallowed, ?_, ?_⟩
      · intro value hvalue
        split at hvalue
        · exact ⟨fun exchange hexchange _ => hcourse.misses ‹_› exchange hexchange, trivial⟩
        · cases hvalue
      · intro other hother
        split at hother
        · cases hother
        · cases hother
          obtain ⟨ender, hends⟩ := hcourse.exists_ender
          have hnotFound : failure.isNotFound = false := Bool.eq_false_iff.mpr ‹_›
          exact ⟨ender, (ends_scans hends hnotFound).within (.groupData group)⟩

/-- The scan of all groups accounts for what it comes to. -/
theorem accounts_scanGroups :
    Accounts (.scans chroot) log (scanGroups registry.recorded chroot topic) fun _ _ => True := by
  have hgroups : Accounts (.scans chroot) log (registeredGroups registry.recorded chroot)
      fun _ _ => True := by
    apply Accounts.ofExchange
    intro state
    let answer := ((registry.children (NodePath.groups chroot)).run state).1
    refine ⟨answer.mapError (RegistryFault.toFailure .groupsListing),
      .children (NodePath.groups chroot) answer,
      ((registry.children (NodePath.groups chroot)).run state).2, rfl, trivial, ?_, ?_⟩
    · intro value hvalue
      rcases hanswer : answer with fault | nodes <;> rw [hanswer] at hvalue
      · cases hvalue
      · exact ⟨fun hspoiled => absurd hspoiled (Exchange.not_spoiled_groups nodes), trivial⟩
    · intro failure hfailure
      rcases hanswer : answer with (_ | cause) | nodes <;> rw [hanswer] at hfailure <;>
        cases hfailure
      · exact ⟨Terms.scans_keeps (.inl rfl), Exchange.Lacks.groups⟩
      · exact ⟨Terms.scans_keeps (.inr ⟨cause, rfl⟩), Exchange.Faults.groups⟩
  refine hgroups.bind fun groups more _ => ?_
  exact .foldlM trivial (fun found group _ later _ => accounts_scanGroup found) ∅

end Ownership

end ConsumerGroups
