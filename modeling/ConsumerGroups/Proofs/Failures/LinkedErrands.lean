import ConsumerGroups.Call
import ConsumerGroups.Proofs.Failures.Accounts

/-! # What errands over links account for

Over open links, reaching a connection accounts for the attempt to connect that it may make, and
what an errand does with the connection comes on top. Closed links refuse to reach anything, and
no exchange is made.
-/

namespace ConsumerGroups

variable {σ α β : Type} {terms : Terms} {links : Links (Recorded σ)} {log : List Exchange}

/-- An errand over links that goes on from a log so that, if the log is clean, the longer log
bears out what the errand comes to. -/
structure AccountsOver (terms : Terms) (links : Links (Recorded σ)) (log : List Exchange)
    (errand : LinkedErrand (Recorded σ) α)
    (after : α → Links (Recorded σ) → List Exchange → Prop) : Prop where
  bears : ∀ state, terms.Clean log →
    match errand.runFrom links ⟨state, log⟩ with
    | ((.ok value, reached), recorded) =>
      terms.Clean recorded.log ∧ after value reached recorded.log
    | ((.error failure, _), recorded) => terms.Settled recorded.log failure

namespace AccountsOver

theorem bind {errand : LinkedErrand (Recorded σ) α} {next : α → LinkedErrand (Recorded σ) β}
    {between : α → Links (Recorded σ) → List Exchange → Prop}
    {after : β → Links (Recorded σ) → List Exchange → Prop}
    (herrand : AccountsOver terms links log errand between)
    (hnext : ∀ value reached more, between value reached more →
      AccountsOver terms reached more (next value) after) :
    AccountsOver terms links log (errand >>= next) after := by
  constructor
  intro state hclean
  have hfirst := herrand.bears state hclean
  rw [LinkedErrand.runFrom_bind]
  rcases hrun : errand.runFrom links ⟨state, log⟩ with ⟨⟨result, reached⟩, ⟨middle, more⟩⟩
  rw [hrun] at hfirst
  cases result with
  | error failure => exact hfirst
  | ok value => exact (hnext value reached more hfirst.2).bears middle hfirst.1

theorem ofTask {task : Errand (Recorded σ) α} {after : α → List Exchange → Prop}
    (htask : Accounts terms log task after) :
    AccountsOver terms links log (LinkedErrand.ofTask task)
      fun value _ more => after value more := by
  constructor
  intro state hclean
  have hbears := htask.bears state hclean
  rw [LinkedErrand.runFrom_ofTask]
  rcases hrun : task.runFrom ⟨state, log⟩ with ⟨failure | value, reached⟩ <;> rw [hrun] at hbears <;>
    exact hbears

end AccountsOver

variable {inner : Links σ}

/-- Reaching the cluster over open links accounts for what it comes to. -/
theorem accounts_reachCluster (chroot : String) (hopen : inner.slots.closed = false) :
    AccountsOver (.cluster chroot) inner.recorded [] Links.reachCluster
      fun cluster _ _ => ∃ plain : Cluster σ, cluster = plain.recorded := by
  constructor
  intro state hclean
  rw [Links.reachCluster_recorded, Links.reachCluster_run]
  cases haccess : inner.slots.clusterAccess with
  | closed => simp [Slots.clusterAccess, Slots.access_eq_closed, hopen] at haccess
  | connected cluster => exact ⟨hclean, cluster, rfl⟩
  | empty =>
      rcases hdialed : (inner.dialer.cluster inner.settings.cluster).run state with
        ⟨cause | cluster, reached⟩
      · exact hclean.settled (List.forall_mem_singleton.mpr id)
          (Terms.ends_singleton id Exchange.Faults.connectCluster)
      · refine ⟨hclean.append (List.forall_mem_singleton.mpr ⟨id, fun hspoiled => ?_⟩), cluster,
          rfl⟩
        obtain ⟨_, ⟨⟩⟩ := hspoiled.errs id

/-- Reaching the registry over open links accounts for what it comes to. -/
theorem accounts_reachRegistry (hopen : inner.slots.closed = false)
    (hallows : ∀ answer, terms.allows (.connectRegistry inner.settings.registry answer))
    (hkeeps : ∀ answer, ¬terms.passes (.connectRegistry inner.settings.registry answer)) :
    AccountsOver terms inner.recorded [] Links.reachRegistry fun registry reached _ =>
      reached.settings = inner.settings ∧ ∃ plain : Registry σ, registry = plain.recorded := by
  constructor
  intro state hclean
  rw [Links.reachRegistry_recorded, Links.reachRegistry_run]
  cases haccess : inner.slots.registryAccess with
  | closed => simp [Slots.registryAccess, Slots.access_eq_closed, hopen] at haccess
  | connected registry => exact ⟨hclean, rfl, registry, rfl⟩
  | empty =>
      rcases hdialed : (inner.dialer.registry inner.settings.registry).run state with
        ⟨cause | registry, reached⟩
      · exact hclean.settled (List.forall_mem_singleton.mpr (hallows _))
          (Terms.ends_singleton (hkeeps _) Exchange.Faults.connectRegistry)
      · refine ⟨hclean.append (List.forall_mem_singleton.mpr ⟨hallows _, fun hspoiled => ?_⟩), rfl,
          registry, rfl⟩
        obtain ⟨_, ⟨⟩⟩ := hspoiled.errs id

/-- Asking where the registry's paths start makes no exchange. -/
theorem accounts_chroot :
    AccountsOver terms links log Console.chroot fun chroot _ more =>
      chroot = links.settings.registry.chroot ∧ more = log :=
  ⟨fun _ hclean => ⟨hclean, rfl, rfl⟩⟩

/-! ## Closing and closed links -/

/-- An errand that starts with reaching the cluster is refused by closed links. -/
theorem reachCluster_bind_of_closed {links : Links σ} (hclosed : links.slots.closed = true)
    (next : Cluster σ → LinkedErrand σ α) (state : σ) :
    (Links.reachCluster >>= next).runFrom links state =
      ((.error (.connection .clusterConnection Links.closedCause), links), state) := by
  rw [LinkedErrand.runFrom_bind, Links.reachCluster_run, Slots.clusterAccess,
    Slots.access_eq_closed.mpr hclosed]

/-- An errand that starts with reaching the registry is refused by closed links. -/
theorem reachRegistry_bind_of_closed {links : Links σ} (hclosed : links.slots.closed = true)
    (next : Registry σ → LinkedErrand σ α) (state : σ) :
    (Links.reachRegistry >>= next).runFrom links state =
      ((.error (.connection .registryConnection Links.closedCause), links), state) := by
  rw [LinkedErrand.runFrom_bind, Links.reachRegistry_run, Slots.registryAccess,
    Slots.access_eq_closed.mpr hclosed]

/-- Closing recorded links records no exchange but the closing of a connection. -/
theorem mem_close_recorded {inner : Links σ} {state : σ} {exchange : Exchange}
    (hexchange : exchange ∈ ((Links.close.run inner.recorded).run ⟨state, []⟩).2.log) :
    exchange = .closeCluster ∨ exchange = .closeRegistry := by
  rcases inner with ⟨settings, dialer, ⟨cluster, registry, closed⟩⟩
  rw [Links.close_run] at hexchange
  cases closed with
  | true => cases hexchange
  | false =>
      -- What is recorded follows the slots that hold a connection, and is the same by computation.
      cases cluster <;> cases registry
      · exact absurd hexchange (List.not_mem_nil)
      · exact .inr (List.mem_singleton.mp hexchange)
      · exact .inl (List.mem_singleton.mp hexchange)
      · have hboth : exchange ∈ [Exchange.closeCluster, .closeRegistry] := hexchange
        simpa using hboth

end ConsumerGroups
