import ConsumerGroups.Cluster
import ConsumerGroups.Registry
import ConsumerGroups.Settings.Basic

/-! # Links to the cluster and the registry

Each connection is made on first use and shared afterwards. An attempt that fails leaves its
slot empty, so that the next use tries again. Closing releases whatever was connected, once;
after that nothing connects any more.
-/

namespace ConsumerGroups

/-- The connections made so far, whatever their handles are. -/
structure Slots (κ τ : Type) where
  cluster : Option κ := none
  registry : Option τ := none
  closed : Bool := false

/-- What a use of a connection meets: closed slots, a connection, or an empty slot. -/
inductive Access (κ : Type)
  | closed
  | connected (handle : κ)
  | empty
deriving DecidableEq, Repr

namespace Slots

variable {κ τ : Type}

/-- What a use of one slot meets. -/
def access {γ : Type} (slots : Slots κ τ) (slot : Option γ) : Access γ :=
  if slots.closed then .closed
  else
    match slot with
    | some handle => .connected handle
    | none => .empty

def clusterAccess (slots : Slots κ τ) : Access κ :=
  slots.access slots.cluster

def registryAccess (slots : Slots κ τ) : Access τ :=
  slots.access slots.registry

def withCluster (slots : Slots κ τ) (handle : κ) : Slots κ τ :=
  { slots with cluster := some handle }

def withRegistry (slots : Slots κ τ) (handle : τ) : Slots κ τ :=
  { slots with registry := some handle }

/-- Slots that are closed and hold nothing. -/
def shut (_ : Slots κ τ) : Slots κ τ :=
  { closed := true }

end Slots

structure Dialer (σ : Type) where
  cluster : ClusterSettings → StateM σ (Reply (Cluster σ))
  registry : RegistrySettings → StateM σ (Reply (Registry σ))

/-- The links of one user: its settings, what connects it, and its connections. -/
structure Links (σ : Type) where
  settings : Settings
  dialer : Dialer σ
  slots : Slots (Cluster σ) (Registry σ) := {}

/-- An errand that may make use of links. -/
abbrev LinkedErrand (σ α : Type) := ExceptT Failure (StateT (Links σ) (StateM σ)) α

namespace LinkedErrand

variable {σ α : Type}

def runFrom (errand : LinkedErrand σ α) (links : Links σ) (state : σ) :
    (Except Failure α × Links σ) × σ :=
  StateT.run (StateT.run (ExceptT.run errand) links) state

/-- An errand that leaves the links alone. -/
def ofTask (errand : Errand σ α) : LinkedErrand σ α :=
  ExceptT.mk (StateT.lift (ExceptT.run errand))

@[simp] theorem runFrom_ofTask (errand : Errand σ α) (links : Links σ) (state : σ) :
    (ofTask errand).runFrom links state =
      (((errand.runFrom state).1, links), (errand.runFrom state).2) := rfl

/-- A failure of the first part ends the run with the links and the state reached. -/
theorem runFrom_bind {β : Type} (errand : LinkedErrand σ α) (next : α → LinkedErrand σ β)
    (links : Links σ) (state : σ) :
    (errand >>= next).runFrom links state =
      match errand.runFrom links state with
      | ((.ok value, reached), state) => (next value).runFrom reached state
      | ((.error failure, reached), state) => ((.error failure, reached), state) := by
  simp only [runFrom, ExceptT.run_bind, StateT.run_bind]
  rcases hrun : ((ExceptT.run errand).run links).run state with ⟨⟨result, reached⟩, state'⟩
  cases result <;> rfl

end LinkedErrand

namespace Links

variable {σ : Type}

/-- The cause that closed links give. -/
def closedCause : Cause := ["admin is closed"]

/-- The connection to the cluster, made now if it is not there. -/
def reachCluster : LinkedErrand σ (Cluster σ) := do
  let links ← getThe (Links σ)
  match links.slots.clusterAccess with
  | .closed => throw (.connection .clusterConnection closedCause)
  | .connected cluster => pure cluster
  | .empty =>
    let cluster ← LinkedErrand.ofTask <|
      Errand.await .clusterConnection (links.dialer.cluster links.settings.cluster)
    set { links with slots := links.slots.withCluster cluster }
    pure cluster

/-- The connection to the registry, made now if it is not there. -/
def reachRegistry : LinkedErrand σ (Registry σ) := do
  let links ← getThe (Links σ)
  match links.slots.registryAccess with
  | .closed => throw (.connection .registryConnection closedCause)
  | .connected registry => pure registry
  | .empty =>
    let registry ← LinkedErrand.ofTask <|
      Errand.await .registryConnection (links.dialer.registry links.settings.registry)
    set { links with slots := links.slots.withRegistry registry }
    pure registry

/-- Closes the connections that slots hold, the cluster first. -/
def release (slots : Slots (Cluster σ) (Registry σ)) : StateM σ Unit := do
  if let some cluster := slots.cluster then cluster.close
  if let some registry := slots.registry then registry.close

/-- Closes the links. Closing them again does nothing. -/
def close : StateT (Links σ) (StateM σ) Unit := do
  let links ← getThe (Links σ)
  if links.slots.closed then
    pure ()
  else
    set { links with slots := links.slots.shut }
    StateT.lift (release links.slots)

end Links

end ConsumerGroups
