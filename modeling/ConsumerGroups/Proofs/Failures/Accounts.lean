import ConsumerGroups.Proofs.Failures.Blame
import ConsumerGroups.Proofs.Recording

/-! # Errands that account for their failures

An errand over recorded collaborators accounts for what it comes to if its log bears it out. As
long as it succeeds, the errand could go on from every exchange in the log, but for those that it
passes over on purpose. If it fails, an exchange in the log explains the failure, and comes before
every other one from which the errand could not go on. Errands that account for their failures do
so together.
-/

namespace ConsumerGroups

open Message Results

/-- What a log is held against: where the registry's paths start, which exchanges may be made,
and which exchanges may be passed over though no errand goes on from them. -/
structure Terms where
  chroot : String
  allows : Exchange → Prop
  passes : Exchange → Prop

namespace Terms

/-- A log from which an errand can go on, but for what is passed over. -/
def Clean (terms : Terms) (log : List Exchange) : Prop :=
  ∀ exchange ∈ log, terms.allows exchange ∧
    (exchange.Spoiled terms.chroot → terms.passes exchange)

/-- An exchange of a log explains a failure, and comes before every other one from which no errand
can go on. -/
structure Ends (terms : Terms) (log : List Exchange) (failure : Failure) (ender : Exchange) :
    Prop where
  made : ender ∈ log
  kept : ¬terms.passes ender
  explains : ender.Explains terms.chroot failure.context failure.reason
  first : ∀ other ∈ log, other.Spoiled terms.chroot → ¬terms.passes other →
    ender = other ∨ ender.Forestalls terms.chroot log other

/-- A log that bears out a failure: one exchange in it ends the errand. -/
structure Settled (terms : Terms) (log : List Exchange) (failure : Failure) : Prop where
  allowed : ∀ exchange ∈ log, terms.allows exchange
  ended : ∃ ender, terms.Ends log failure ender

/-- An errand on the cluster calls the cluster alone, and passes over nothing. -/
def cluster (chroot : String) : Terms :=
  { chroot, allows := fun exchange => ¬exchange.OnRegistry, passes := fun _ => False }

/-- Further layers of context do not change what ends an errand. -/
theorem Ends.within {terms : Terms} {log : List Exchange} {failure : Failure} {ender : Exchange}
    (hends : terms.Ends log failure ender) (layer : Context) :
    terms.Ends log (failure.within layer) ender :=
  ⟨hends.made, hends.kept, hends.explains, hends.first⟩

theorem Clean.append {terms : Terms} {log more : List Exchange} (hclean : terms.Clean log)
    (hmore : terms.Clean more) : terms.Clean (log ++ more) :=
  List.forall_mem_append.mpr ⟨hclean, hmore⟩

/-- Exchanges made after a clean log bear out a failure if one of them ends the errand. -/
theorem Clean.settled {terms : Terms} {log made : List Exchange} {failure : Failure}
    (hclean : terms.Clean log) (hallows : ∀ exchange ∈ made, terms.allows exchange)
    {ender : Exchange} (hends : terms.Ends made failure ender) :
    terms.Settled (log ++ made) failure := by
  refine ⟨fun other hother => ?_, ender, List.mem_append_right _ hends.made, hends.kept,
    hends.explains, fun other hother hspoiled hlost => ?_⟩
  · rcases List.mem_append.mp hother with hold | hnew
    · exact (hclean other hold).1
    · exact hallows other hnew
  · rcases List.mem_append.mp hother with hold | hnew
    · exact absurd ((hclean other hold).2 hspoiled) hlost
    · exact (hends.first other hnew hspoiled hlost).imp_right
        (·.mono (List.subset_append_right log made))

/-- A single exchange that explains a failure ends the errand. -/
theorem ends_singleton {terms : Terms} {exchange : Exchange} {failure : Failure}
    (hkept : ¬terms.passes exchange)
    (hexplains : exchange.Explains terms.chroot failure.context failure.reason) :
    terms.Ends [exchange] failure exchange :=
  ⟨List.mem_singleton_self _, hkept, hexplains,
    fun _ hother _ _ => .inl (List.mem_singleton.mp hother).symm⟩

end Terms

/-- A log that bears out what an errand came to: it has no error if the errand succeeded, and then
a property together with the value, and otherwise it explains the failure. -/
def Terms.Bears {σ α : Type} (terms : Terms) (after : α → List Exchange → Prop) :
    Except Failure α × Recorded σ → Prop
  | (.ok value, reached) => terms.Clean reached.log ∧ after value reached.log
  | (.error failure, reached) => terms.Settled reached.log failure

/-- An errand that goes on from a log so that, if the log is clean, the longer log bears out what
the errand comes to. -/
structure Accounts {σ α : Type} (terms : Terms) (log : List Exchange)
    (errand : Errand (Recorded σ) α) (after : α → List Exchange → Prop) : Prop where
  bears : ∀ state, terms.Clean log → terms.Bears after (errand.runFrom ⟨state, log⟩)

namespace Accounts

variable {σ α β : Type} {terms : Terms} {log : List Exchange}

theorem pure {value : α} {after : α → List Exchange → Prop} (hafter : after value log) :
    Accounts terms log (Pure.pure value : Errand (Recorded σ) α) after :=
  ⟨fun _ hclean => ⟨hclean, hafter⟩⟩

theorem mono {errand : Errand (Recorded σ) α} {after after' : α → List Exchange → Prop}
    (herrand : Accounts terms log errand after)
    (hafter : ∀ value more, after value more → after' value more) :
    Accounts terms log errand after' := by
  constructor
  intro state hclean
  have hbears := herrand.bears state hclean
  rcases hrun : errand.runFrom ⟨state, log⟩ with ⟨failure | value, reached⟩ <;> rw [hrun] at hbears
  · exact hbears
  · exact ⟨hbears.1, hafter value _ hbears.2⟩

theorem bind {errand : Errand (Recorded σ) α} {next : α → Errand (Recorded σ) β}
    {between : α → List Exchange → Prop} {after : β → List Exchange → Prop}
    (herrand : Accounts terms log errand between)
    (hnext : ∀ value more, between value more → Accounts terms more (next value) after) :
    Accounts terms log (errand >>= next) after := by
  constructor
  intro state hclean
  have hfirst := herrand.bears state hclean
  rw [Errand.runFrom_bind]
  rcases hrun : errand.runFrom ⟨state, log⟩ with ⟨result, ⟨reached, more⟩⟩
  rw [hrun] at hfirst
  cases result with
  | error failure => exact hfirst
  | ok value => exact (hnext value more hfirst.2).bears reached hfirst.1

/-- What holds of the log at the start, and is kept by every step, holds at the end. -/
theorem foldlM {next : β → α → Errand (Recorded σ) β} {items : List α}
    {holds : List Exchange → Prop} (hlog : holds log)
    (hnext : ∀ value, ∀ item ∈ items, ∀ more, holds more →
      Accounts terms more (next value item) fun _ => holds) (start : β) :
    Accounts terms log (items.foldlM next start) fun _ => holds := by
  induction items generalizing start log with
  | nil => exact .pure hlog
  | cons item rest ih =>
      rw [List.foldlM_cons]
      refine (hnext start item List.mem_cons_self log hlog).bind fun value more hmore =>
        ih hmore ?_ value
      exact fun value other hother => hnext value other (List.mem_cons_of_mem item hother)

/-- An errand that makes some exchanges, and fails as one of them explains that ends it. -/
theorem ofExchanges {errand : Errand (Recorded σ) α} {after : α → List Exchange → Prop}
    (hrun : ∀ state, ∃ result made reached,
      errand.runFrom ⟨state, log⟩ = (result, ⟨reached, log ++ made⟩) ∧
      (∀ exchange ∈ made, terms.allows exchange) ∧
      (∀ value, result = .ok value →
        (∀ exchange ∈ made, exchange.Spoiled terms.chroot → terms.passes exchange) ∧
          after value (log ++ made)) ∧
      ∀ failure, result = .error failure → ∃ ender, terms.Ends made failure ender) :
    Accounts terms log errand after := by
  constructor
  intro state hclean
  obtain ⟨result, made, reached, hmade, hallows, hvalue, hfailure⟩ := hrun state
  rw [hmade]
  cases result with
  | ok value =>
      obtain ⟨hfine, hafter⟩ := hvalue value rfl
      refine ⟨hclean.append fun exchange hexchange => ?_, hafter⟩
      exact ⟨hallows exchange hexchange, hfine exchange hexchange⟩
  | error failure =>
      obtain ⟨ender, hends⟩ := hfailure failure rfl
      exact hclean.settled hallows hends

/-- An errand that makes one exchange, and fails as the exchange explains. -/
theorem ofExchange {errand : Errand (Recorded σ) α} {after : α → List Exchange → Prop}
    (hrun : ∀ state, ∃ result exchange reached,
      errand.runFrom ⟨state, log⟩ = (result, ⟨reached, log ++ [exchange]⟩) ∧
      terms.allows exchange ∧
      (∀ value, result = .ok value →
        (exchange.Spoiled terms.chroot → terms.passes exchange) ∧
          after value (log ++ [exchange])) ∧
      ∀ failure, result = .error failure → ¬terms.passes exchange ∧
        exchange.Explains terms.chroot failure.context failure.reason) :
    Accounts terms log errand after := by
  refine ofExchanges fun state => ?_
  obtain ⟨result, exchange, reached, hmade, hallows, hvalue, hfailure⟩ := hrun state
  refine ⟨result, [exchange], reached, hmade, by simpa using hallows, fun value hresult => ?_,
    fun failure hresult => ?_⟩
  · obtain ⟨hfine, hafter⟩ := hvalue value hresult
    exact ⟨by simpa using hfine, hafter⟩
  · obtain ⟨hkept, hexplains⟩ := hfailure failure hresult
    exact ⟨exchange, Terms.ends_singleton hkept hexplains⟩

end Accounts

end ConsumerGroups
