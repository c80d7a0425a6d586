import ConsumerGroups.Canned
import ConsumerGroups.Proofs.Results

/-! # Canned collaborators that note their calls

What a canned cluster answers is fixed beforehand. All that happens to its state is that calls
are noted in it, or not. So a canned cluster and a recorded one are both a cluster that makes
notes of its calls, and only the notes tell them apart.
-/

namespace ConsumerGroups.Canned

variable {σ α : Type}

/-- Gives a fixed answer and makes a note of the exchange. -/
def tell (note : Exchange → σ → σ) (exchange : α → Exchange) (answer : α) : StateM σ α :=
  fun state => (answer, note (exchange answer) state)

/-- The state after notes of some exchanges, in order. -/
def noteAll (note : Exchange → σ → σ) (exchanges : List Exchange) (state : σ) : σ :=
  exchanges.foldl (fun state exchange => note exchange state) state

@[simp] theorem noteAll_nil (note : Exchange → σ → σ) (state : σ) : noteAll note [] state = state :=
  rfl

@[simp] theorem noteAll_cons (note : Exchange → σ → σ) (exchange : Exchange)
    (rest : List Exchange) (state : σ) :
    noteAll note (exchange :: rest) state = noteAll note rest (note exchange state) := rfl

theorem noteAll_append (note : Exchange → σ → σ) (first second : List Exchange) (state : σ) :
    noteAll note (first ++ second) state = noteAll note second (noteAll note first state) :=
  List.foldl_append

/-- A traversal notes the calls of its items, one item after another. -/
theorem mapM_noting {β : Type} {note : Exchange → σ → σ} {ask : α → StateM σ β} {answer : α → β}
    {calls : α → List Exchange} {items : List α}
    (hask : ∀ item ∈ items, ∀ state,
      (ask item).run state = (answer item, noteAll note (calls item) state)) (state : σ) :
    (items.mapM ask).run state =
      (items.map answer, noteAll note (items.flatMap calls) state) := by
  induction items generalizing state with
  | nil => rfl
  | cons item rest ih =>
      have hrest := ih fun other hother => hask other (List.mem_cons_of_mem item hother)
      rw [Results.mapM_cons_run, hask item List.mem_cons_self, hrest, List.flatMap_cons,
        noteAll_append]
      rfl

/-! ## Collaborators -/

/-- The broker that gives these replies and notes its calls. -/
def BrokerReplies.noting (note : Exchange → σ → σ) (replies : BrokerReplies) : Broker σ where
  id := replies.id
  listOffsets version request := tell note (.listOffsets replies.id version request)
    (replies.offsets (broker.boundaryOf request))

/-- The coordinator that gives these replies and notes its calls. -/
def CoordinatorReplies.noting (note : Exchange → σ → σ) (replies : CoordinatorReplies) :
    Coordinator σ where
  id := replies.id
  fetch version request := tell note (.offsetFetch replies.id version request) replies.fetch
  commit version request := tell note (.offsetCommit replies.id version request) replies.commit

/-- The cluster that gives these replies and notes its calls. -/
def ClusterReplies.noting (note : Exchange → σ → σ) (replies : ClusterReplies) : Cluster σ where
  partitions topic := tell note (.partitions topic) (replies.partitions topic)
  leader topic partition :=
    (·.map (BrokerReplies.noting note)) <$>
      tell note (fun answer => .leader topic partition (answer.map (·.id)))
        (replies.leader topic partition)
  coordinator group :=
    (·.map (CoordinatorReplies.noting note)) <$>
      tell note (fun answer => .coordinator group (answer.map (·.id))) (replies.coordinator group)
  close := tell note (fun _ => .closeCluster) ()

/-- A plain canned cluster makes no notes. -/
theorem cluster_eq_noting (replies : ClusterReplies) :
    (replies.cluster : Cluster σ) = replies.noting (fun _ state => state) := rfl

/-- The note that recording makes of an exchange. -/
def noteInLog (exchange : Exchange) (recorded : Recorded σ) : Recorded σ :=
  { recorded with log := recorded.log ++ [exchange] }

/-- A recorded canned cluster notes its calls in the log. -/
theorem recorded_eq_noting (replies : ClusterReplies) :
    (replies.cluster : Cluster σ).recorded = replies.noting noteInLog := by
  simp only [Cluster.recorded, ClusterReplies.noting, Cluster.mk.injEq]
  refine ⟨rfl, ?_, ?_, rfl⟩
  · funext topic partition recorded
    change (_, _) = (_, _)
    simp only [ClusterReplies.cluster]
    cases replies.leader topic partition <;> rfl
  · funext group recorded
    change (_, _) = (_, _)
    simp only [ClusterReplies.cluster]
    cases replies.coordinator group <;> rfl

theorem noteAll_inLog (exchanges : List Exchange) (recorded : Recorded σ) :
    noteAll noteInLog exchanges recorded = { recorded with log := recorded.log ++ exchanges } := by
  induction exchanges generalizing recorded with
  | nil => simp
  | cons exchange rest ih => simp [ih, noteInLog]

end ConsumerGroups.Canned
