import ConsumerGroups.Links

/-! # Runs over links

What a run that reaches or closes connections does depends on what its slot holds. A connection
that is there is handed out, an empty slot is filled by one attempt, and closed slots stay closed.
-/

namespace ConsumerGroups

namespace Slots

variable {κ τ γ : Type} {slots : Slots κ τ} {slot : Option γ}

theorem access_eq_closed : slots.access slot = .closed ↔ slots.closed = true := by
  unfold access
  cases slots.closed <;> cases slot <;> simp

theorem access_eq_connected {handle : γ} :
    slots.access slot = .connected handle ↔ slots.closed = false ∧ slot = some handle := by
  unfold access
  cases slots.closed <;> cases slot <;> simp

theorem access_eq_empty : slots.access slot = .empty ↔ slots.closed = false ∧ slot = none := by
  unfold access
  cases slots.closed <;> cases slot <;> simp

end Slots

namespace Links

variable {σ : Type}

theorem runFrom_getThe (links : Links σ) (state : σ) :
    (getThe (Links σ) : LinkedErrand σ (Links σ)).runFrom links state =
      ((.ok links, links), state) := rfl

/-- Reaching the cluster attempts to connect only if the slot is empty, and fills the slot only
if the attempt succeeds. -/
theorem reachCluster_run (links : Links σ) (state : σ) :
    reachCluster.runFrom links state =
      match links.slots.clusterAccess with
      | .closed => ((.error (.connection .clusterConnection closedCause), links), state)
      | .connected cluster => ((.ok cluster, links), state)
      | .empty =>
        match (links.dialer.cluster links.settings.cluster).run state with
        | (.error cause, reached) => ((.error (.connection .clusterConnection cause), links), reached)
        | (.ok cluster, reached) =>
          ((.ok cluster, { links with slots := links.slots.withCluster cluster }), reached) := by
  rw [reachCluster, LinkedErrand.runFrom_bind, runFrom_getThe]
  dsimp only
  cases haccess : links.slots.clusterAccess with
  | closed => rfl
  | connected cluster => rfl
  | empty =>
      rcases hdialed : (links.dialer.cluster links.settings.cluster).run state with ⟨answer, reached⟩
      have happlied : links.dialer.cluster links.settings.cluster state = (answer, reached) :=
        hdialed
      simp only [LinkedErrand.runFrom_bind, LinkedErrand.runFrom_ofTask, Errand.runFrom_await,
        happlied]
      cases answer <;> rfl

/-- Reaching the registry attempts to connect only if the slot is empty, and fills the slot only
if the attempt succeeds. -/
theorem reachRegistry_run (links : Links σ) (state : σ) :
    reachRegistry.runFrom links state =
      match links.slots.registryAccess with
      | .closed => ((.error (.connection .registryConnection closedCause), links), state)
      | .connected registry => ((.ok registry, links), state)
      | .empty =>
        match (links.dialer.registry links.settings.registry).run state with
        | (.error cause, reached) =>
          ((.error (.connection .registryConnection cause), links), reached)
        | (.ok registry, reached) =>
          ((.ok registry, { links with slots := links.slots.withRegistry registry }), reached) := by
  rw [reachRegistry, LinkedErrand.runFrom_bind, runFrom_getThe]
  dsimp only
  cases haccess : links.slots.registryAccess with
  | closed => rfl
  | connected registry => rfl
  | empty =>
      rcases hdialed : (links.dialer.registry links.settings.registry).run state with
        ⟨answer, reached⟩
      have happlied : links.dialer.registry links.settings.registry state = (answer, reached) :=
        hdialed
      simp only [LinkedErrand.runFrom_bind, LinkedErrand.runFrom_ofTask, Errand.runFrom_await,
        happlied]
      cases answer <;> rfl

/-- Closing shuts the slots and then releases what they held, unless they are closed already. -/
theorem close_run (links : Links σ) (state : σ) :
    (close.run links).run state =
      if links.slots.closed then (((), links), state)
      else (((), { links with slots := links.slots.shut }),
        ((release links.slots).run state).2) := by
  have hread : (close.run links).run state =
      (StateT.run (if links.slots.closed then pure () else do
        set { links with slots := links.slots.shut }
        StateT.lift (release links.slots)) links).run state := rfl
  rw [hread]
  split <;> rfl

end Links

end ConsumerGroups
