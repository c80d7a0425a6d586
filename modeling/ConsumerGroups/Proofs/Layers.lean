import ConsumerGroups.Proofs.Ownership.Scan

/-! # Layers of context

However many layers of context callers add around a failure, it stays what it was. Its kind and
its reason are kept, and its message is kept behind the texts of the layers. A success passes all
the layers as it is.
-/

namespace ConsumerGroups

/-- A way in which a caller adds a layer to a result. The layer is there, or it is only made if the
result is a failure, or the caller catches the failure and adds the layer to that. -/
inductive Layering
  | given (layer : Context)
  | made (layer : Unit → Context)
  | caught (layer : Context)

namespace Layering

def layer : Layering → Context
  | given layer => layer
  | made layer => layer ()
  | caught layer => layer

variable {α : Type}

/-- Adds one layer to a result. -/
def add : Layering → Except Failure α → Except Failure α
  | given layer => inContext layer
  | made layer => inMadeContext layer
  | caught layer => fun
    | .ok value => .ok value
    | .error failure => .error (failure.within layer)

/-- Adds layers to a result, the innermost first. -/
def addAll (layerings : List Layering) (result : Except Failure α) : Except Failure α :=
  layerings.foldl (fun result layering => layering.add result) result

theorem add_error (layering : Layering) (failure : Failure) :
    layering.add (.error failure : Except Failure α) = .error (failure.within layering.layer) := by
  cases layering <;> rfl

theorem add_ok (layering : Layering) (value : α) :
    layering.add (.ok value) = .ok value := by
  cases layering <;> rfl

end Layering

namespace Failure

/-- The failure with layers added around it, the innermost first. -/
def withinAll (failure : Failure) (layers : List Context) : Failure :=
  layers.foldl (fun failure layer => failure.within layer) failure

/-- The text of all layers of context of a failure, the outermost first. -/
def contextText (failure : Failure) : String :=
  ": ".intercalate (failure.layers.map Context.text)

/-- What layers put before the message of a failure, given the innermost first. -/
def heading (layers : List Context) : String :=
  String.join (layers.reverse.map fun layer => layer.text ++ ": ")

theorem heading_cons (layer : Context) (layers : List Context) :
    heading (layer :: layers) = heading layers ++ (layer.text ++ ": ") := by
  simp [heading]

theorem isNotFound_eq (failure : Failure) :
    failure.isNotFound = decide (failure.kind = .notFound) := by
  unfold isNotFound kind
  cases failure.reason <;> simp

theorem reason_withinAll (failure : Failure) (layers : List Context) :
    (failure.withinAll layers).reason = failure.reason := by
  induction layers generalizing failure with
  | nil => rfl
  | cons layer rest ih => exact ih (failure.within layer)

theorem message_withinAll (failure : Failure) (layers : List Context) :
    (failure.withinAll layers).message = heading layers ++ failure.message := by
  induction layers generalizing failure with
  | nil => exact (String.empty_append).symm
  | cons layer rest ih =>
      rw [heading_cons, String.append_assoc, ← Ownership.message_within]
      exact ih (failure.within layer)

theorem kind_withinAll (failure : Failure) (layers : List Context) :
    (failure.withinAll layers).kind = failure.kind := by
  unfold kind
  rw [reason_withinAll]

/-- The message is the context, and what the reason has to say after it. -/
theorem message_eq_append {failure : Failure} (hdetails : failure.reason.details ≠ []) :
    failure.message =
      failure.contextText ++ ": " ++ ": ".intercalate failure.reason.details := by
  have hlayers : failure.layers.map Context.text ≠ [] := by simp [layers]
  exact String.intercalate_append_of_ne_nil hlayers hdetails

theorem message_eq_contextText {failure : Failure} (hdetails : failure.reason.details = []) :
    failure.message = failure.contextText := by
  rw [message, hdetails, List.append_nil]
  rfl

end Failure

theorem Layering.addAll_ok {α : Type} (layerings : List Layering) (value : α) :
    addAll layerings (.ok value) = .ok value := by
  induction layerings with
  | nil => rfl
  | cons layering rest ih =>
      rw [addAll, List.foldl_cons, add_ok]
      exact ih

theorem Layering.addAll_error {α : Type} (layerings : List Layering) (failure : Failure) :
    addAll layerings (.error failure : Except Failure α) =
      .error (failure.withinAll (layerings.map layer)) := by
  induction layerings generalizing failure with
  | nil => rfl
  | cons layering rest ih =>
      rw [addAll, List.foldl_cons, add_error]
      exact ih (failure.within layering.layer)

/-- Whatever layers are added, and in whatever way, a success passes them all, and a failure keeps
its kind, its code and its cause. Its message comes after the texts of the layers, of which that of
the last one stands first, and still ends with the description of the code or with the whole
cause. -/
theorem layers_keep {α : Type} (failure : Failure) (layerings : List Layering) :
    let layers := layerings.map Layering.layer
    let wrapped := failure.withinAll layers
    (∀ value : α, Layering.addAll layerings (.ok value) = .ok value) ∧
    Layering.addAll layerings (.error failure : Except Failure α) = .error wrapped ∧
    wrapped.kind = failure.kind ∧
    wrapped.isNotFound = failure.isNotFound ∧
    wrapped.reason = failure.reason ∧
    wrapped.message =
      String.join (layers.reverse.map fun layer => layer.text ++ ": ") ++ failure.message ∧
    (match failure.reason with
      | .connection cause =>
        cause ≠ [] → failure.message = failure.contextText ++ ": " ++ ": ".intercalate cause
      | .remote code => failure.message = failure.contextText ++ ": " ++ ErrorCode.text code
      | .protocol | .notFound => failure.message = failure.contextText) := by
  intro layers wrapped
  refine ⟨Layering.addAll_ok layerings, Layering.addAll_error layerings failure,
    failure.kind_withinAll layers, ?_, failure.reason_withinAll layers,
    failure.message_withinAll layers, ?_⟩
  · rw [Failure.isNotFound_eq, Failure.isNotFound_eq, failure.kind_withinAll]
  · cases hreason : failure.reason with
    | connection cause =>
        intro hcause
        have hdetails : failure.reason.details = cause := by rw [hreason]; rfl
        rw [Failure.message_eq_append (hdetails ▸ hcause), hdetails]
    | remote code =>
        have hdetails : failure.reason.details = [ErrorCode.text code] := by rw [hreason]; rfl
        rw [Failure.message_eq_append (by simp [hdetails]), hdetails, String.intercalate_singleton]
    | protocol => exact Failure.message_eq_contextText (by rw [hreason]; rfl)
    | notFound => exact Failure.message_eq_contextText (by rw [hreason]; rfl)

/-- A refused connection with a cause of two messages, to which layers are added in three ways. -/
theorem layers_keep_cause :
    let failure := Failure.connection .clusterConnection ["refused", "no route"]
    let layerings := [Layering.made fun _ => .groupData "g", .caught (.note "inner"),
      .given (.note "outer")]
    ∃ wrapped : Failure,
      Layering.addAll layerings (.error failure : Except Failure Unit) = .error wrapped ∧
      wrapped.kind = .connection ∧ wrapped.reason = .connection ["refused", "no route"] ∧
      wrapped.message = "outer: inner: failed to fetch group `g` data: " ++
        "failed to create cluster client: refused: no route" ∧
      Layering.addAll layerings (.ok () : Except Failure Unit) = .ok () := by
  intro failure layerings
  obtain ⟨hok, herror, hkind, -, hreason, hmessage, -⟩ :=
    layers_keep (α := Unit) failure layerings
  exact ⟨_, herror, hkind, hreason, by rw [hmessage]; decide, hok ()⟩

end ConsumerGroups
