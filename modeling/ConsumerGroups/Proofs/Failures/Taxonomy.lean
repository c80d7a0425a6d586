import ConsumerGroups.Proofs.Failures.ClusterErrands
import ConsumerGroups.Proofs.Failures.LinkedErrands
import ConsumerGroups.Proofs.Failures.Scans

/-! # The kinds of failures

Callers branch on the reason of a failure, so every failing exchange has to end a call with the
right one. The main statement says this of every call over any collaborators, against the log of
the exchanges that the call made. A failure of the connection is due to an exchange that broke
or to closed links, a refusal to a code in a response, and a failure of the protocol to an answer
that lacks something. The other way round, each of these forces a failure of its kind, unless an
exchange that comes before it ended the call. A subscription is not found only by the call that
asks for its owners, and only if listing them finds no node.
-/

namespace ConsumerGroups

open Results

def failureOf {α : Type} : Except Failure α → Option Failure
  | .ok _ => none
  | .error failure => some failure

/-- The failure that a call ended in, if it did. -/
def CallAnswer.failure? : CallAnswer → Option Failure
  | progress result => failureOf result
  | marks result => failureOf result
  | committed result => failureOf result
  | owners result => failureOf result
  | ownersByGroup result => failureOf result
  | closed => none

/-- The message of a broken connection ends with what broke it. -/
theorem message_eq_append_cause {failure : Failure} {cause : Cause}
    (hcause : failure.reason = .connection cause) :
    ∃ front, failure.message = front ++ cause.text := by
  by_cases hempty : cause = []
  · exact ⟨failure.message, by simp [hempty, Cause.text]⟩
  · have hlayers : failure.layers.map Context.text ≠ [] := by simp [Failure.layers]
    rw [Failure.message, hcause]
    exact ⟨_, String.intercalate_append_of_ne_nil hlayers hempty⟩

namespace ConsoleCall

/-- An exchange that explains a failure and does not end the call: when all groups are looked
through, the owners of the topic are not found in one of them. -/
def PassesOver (call : ConsoleCall) (chroot : String) (exchange : Exchange) : Prop :=
  (∃ topic, call = .ownersByGroup topic) ∧ ∃ context, exchange.Misses chroot context

/-- What the exchanges of a call say about how the call ended. -/
structure Classified (call : ConsoleCall) (chroot : String) (closed : Bool)
    (log : List Exchange) (outcome : Option Failure) : Prop where
  /-- A call that succeeds could go on from every exchange that it does not pass over. -/
  succeeded : outcome = none → ∀ exchange ∈ log, exchange.Spoiled chroot →
    call.PassesOver chroot exchange
  /-- A failure is explained by an exchange that comes before every other one from which the call
  could not go on. -/
  ended : ∀ failure, outcome = some failure → closed = false → ∃ ender ∈ log,
    ender.Explains chroot failure.context failure.reason ∧
      ∀ other ∈ log, other.Spoiled chroot → ¬call.PassesOver chroot other →
        ender = other ∨ ender.Forestalls chroot log other
  /-- Each exchange that broke, each response with a code that counts, each block, offset, mark or
  result that is missing, each name that is no partition and each node that is not there ends the
  call in a failure of its kind, unless an exchange that comes before it did. -/
  forced : ∀ exchange ∈ log, ∀ context reason, exchange.Explains chroot context reason →
    ¬call.PassesOver chroot exchange → ∃ failure, outcome = some failure ∧
      (failure.reason = reason ∧ exchange.Explains chroot failure.context reason ∨
        ∃ ender ∈ log, ender.Forestalls chroot log exchange ∧
          ender.Explains chroot failure.context failure.reason)
  /-- Closed links make every call but one fail without any exchange. -/
  refused : closed = true → log = [] ∧ (call ≠ .close →
    ∃ failure, outcome = some failure ∧ failure.reason = .connection Links.closedCause)
  notFound : (∃ failure, outcome = some failure ∧ failure.reason = .notFound) ↔
    ∃ group topic, call = .owners group topic ∧
      .children (NodePath.owners chroot group topic) (.error .absent) ∈ log
  remote : ∀ failure code, outcome = some failure → failure.reason = .remote code →
    ((∃ group topic, call = .progress group topic) ∨
      ∃ group topic batch, call = .commit group topic batch) ∧
    code ≠ 0 ∧ ∃ exchange ∈ log, exchange.Refuses failure.context code
  connection : ∀ failure, outcome = some failure →
    ((∃ cause, failure.reason = .connection cause) ↔
      closed = true ∨ ∃ exchange ∈ log, ∃ cause, exchange.Faults chroot failure.context cause)
  /-- The message of a broken connection ends with what broke it. -/
  cause : ∀ failure cause, outcome = some failure → failure.reason = .connection cause →
    (∃ front, failure.message = front ++ cause.text) ∧
      (cause = Links.closedCause ∧ closed = true ∨
        ∃ exchange ∈ log, exchange.Faults chroot failure.context cause)
  protocol : ∀ failure, outcome = some failure →
    (failure.reason = .protocol ↔ ∃ exchange ∈ log, exchange.Lacks chroot failure.context)
  /-- Groups that are not there, and an owner that is not there, are failures of the protocol. -/
  missing : ∀ exchange ∈ log, exchange.LacksNode chroot →
    ∃ failure, outcome = some failure ∧ failure.reason = .protocol

/-! ## Kinds from accounts -/

/-- On which terms a call accounts for its failures. -/
def terms (chroot : String) : ConsoleCall → Terms
  | .progress _ _ | .commit _ _ _ => .cluster chroot
  | .owners group topic => .scan chroot group topic
  | .ownersByGroup _ => .scans chroot
  | .close =>
    { chroot
      allows := fun exchange => exchange = .closeCluster ∨ exchange = .closeRegistry
      passes := fun _ => False }

variable {call : ConsoleCall} {chroot : String} {log : List Exchange} {outcome : Option Failure}
  {exchange : Exchange}

theorem chroot_terms (call : ConsoleCall) (chroot : String) :
    (call.terms chroot).chroot = chroot := by
  cases call <;> rfl

theorem passes_terms : (call.terms chroot).passes exchange ↔ call.PassesOver chroot exchange := by
  cases call <;> simp [terms, PassesOver, Terms.cluster, Terms.scan, Terms.scans]

/-- Only a call for the owners of a topic in a group may miss the subscription. -/
theorem owners_of_misses {context : Context} (hmisses : exchange.Misses chroot context)
    (hallows : (call.terms chroot).allows exchange)
    (hkept : ¬(call.terms chroot).passes exchange) :
    ∃ group topic, call = .owners group topic ∧
      exchange = .children (NodePath.owners chroot group topic) (.error .absent) := by
  obtain ⟨-, group, topic, rfl⟩ := hmisses.eq
  cases call with
  | progress => exact absurd trivial hallows
  | commit => exact absurd trivial hallows
  | owners group' topic' =>
      refine ⟨group', topic', rfl, ?_⟩
      rw [hallows.2 _ _ rfl]
  | ownersByGroup => exact absurd ⟨context, hmisses⟩ hkept
  | close => simp [terms] at hallows

/-- Only calls on the cluster may be refused. -/
theorem onCluster_of_refuses {context : Context} {code : Int16}
    (hrefuses : exchange.Refuses context code) (hallows : (call.terms chroot).allows exchange) :
    (∃ group topic, call = .progress group topic) ∨
      ∃ group topic batch, call = .commit group topic batch := by
  have hcluster : ¬exchange.OnRegistry := by cases hrefuses <;> exact id
  cases call with
  | progress group topic => exact .inl ⟨group, topic, rfl⟩
  | commit group topic batch => exact .inr ⟨group, topic, batch, rfl⟩
  | owners => exact absurd hallows.1 hcluster
  | ownersByGroup => exact absurd hallows hcluster
  | close => rcases hallows with rfl | rfl <;> cases hrefuses

theorem code_ne_zero {context : Context} {code : Int16} (hrefuses : exchange.Refuses context code) :
    code ≠ 0 := by
  cases hrefuses <;> assumption

/-- A call over open links that could go on from every exchange has found everything. -/
theorem classified_of_clean (hclean : (call.terms chroot).Clean log) :
    Classified call chroot false log none := by
  have hpasses : ∀ exchange ∈ log, exchange.Spoiled chroot → call.PassesOver chroot exchange := by
    intro exchange hexchange hspoiled
    rw [← chroot_terms call chroot] at hspoiled
    exact passes_terms.mp ((hclean exchange hexchange).2 hspoiled)
  refine
    { succeeded := fun _ => hpasses
      ended := nofun
      forced := fun exchange hexchange context reason hexplains hlost =>
        absurd (hpasses exchange hexchange (.inr ⟨context, reason, hexplains⟩)) hlost
      refused := nofun
      notFound := ⟨nofun, ?_⟩
      remote := nofun
      connection := nofun
      cause := nofun
      protocol := nofun
      missing := ?_ }
  · rintro ⟨group, topic, rfl, hlisting⟩
    obtain ⟨⟨_, hcall⟩, -⟩ := hpasses _ hlisting (.inl ⟨_, rfl⟩)
    cases hcall
  · intro exchange hexchange hlacks
    obtain ⟨-, context, hmisses⟩ := hpasses exchange hexchange (.inl hlacks.errs)
    exact absurd hmisses hlacks.not_misses

/-- A failure over open links is of the kind that the exchange has which ended the call. -/
theorem classified_of_settled {failure : Failure}
    (hsettled : (call.terms chroot).Settled log failure) :
    Classified call chroot false log (some failure) := by
  obtain ⟨hallowed, ender, hender, hkept, hexplains, hfirst⟩ := hsettled
  rw [chroot_terms] at hexplains hfirst
  have hended : ∀ other ∈ log, other.Spoiled chroot → ¬call.PassesOver chroot other →
      ender = other ∨ ender.Forestalls chroot log other :=
    fun other hother hspoiled hlost => hfirst other hother hspoiled (mt passes_terms.mp hlost)
  refine
    { succeeded := nofun
      ended := ?ended
      forced := ?forced
      refused := nofun
      notFound := ⟨?missed, ?listed⟩
      remote := ?remote
      connection := ?connection
      cause := ?cause
      protocol := ?protocol
      missing := ?missing }
  case ended =>
    rintro _ ⟨⟩ -
    exact ⟨ender, hender, hexplains, hended⟩
  case forced =>
    intro exchange hexchange context reason hcharge hlost
    refine ⟨failure, rfl, ?_⟩
    rcases hended exchange hexchange (.inr ⟨context, reason, hcharge⟩) hlost with rfl | hforestalls
    · obtain rfl := hcharge.reason_unique hexplains
      exact .inl ⟨rfl, hexplains⟩
    · exact .inr ⟨ender, hender, hforestalls, hexplains⟩
  case missed =>
    rintro ⟨_, ⟨⟩, hreason⟩
    rw [hreason] at hexplains
    obtain ⟨group, topic, hcall, rfl⟩ := owners_of_misses hexplains (hallowed ender hender) hkept
    exact ⟨group, topic, hcall, hender⟩
  case listed =>
    rintro ⟨group, topic, rfl, hlisting⟩
    have hlost : ¬PassesOver (.owners group topic) chroot
        (.children (NodePath.owners chroot group topic) (.error .absent)) := by
      rintro ⟨⟨_, ⟨⟩⟩, -⟩
    rcases hended _ hlisting (.inl ⟨_, rfl⟩) hlost with rfl | hforestalls
    · exact ⟨failure, rfl, Exchange.Misses.reason_eq hexplains⟩
    · exact absurd hforestalls Exchange.not_forestalled_absent
  case remote =>
    rintro _ code ⟨⟩ hreason
    rw [hreason] at hexplains
    exact ⟨onCluster_of_refuses hexplains (hallowed ender hender), code_ne_zero hexplains, ender,
      hender, hexplains⟩
  case connection =>
    rintro _ ⟨⟩
    constructor
    · rintro ⟨cause, hreason⟩
      rw [hreason] at hexplains
      exact .inr ⟨ender, hender, cause, hexplains⟩
    · rintro (⟨⟨⟩⟩ | ⟨exchange, hexchange, cause, hfaults⟩)
      exact hfaults.reason_eq hexplains
  case cause =>
    rintro _ cause ⟨⟩ hcause
    rw [hcause] at hexplains
    exact ⟨message_eq_append_cause hcause, .inr ⟨ender, hender, hexplains⟩⟩
  case protocol =>
    rintro _ ⟨⟩
    constructor
    · intro hreason
      rw [hreason] at hexplains
      exact ⟨ender, hender, hexplains⟩
    · rintro ⟨exchange, hexchange, hlacks⟩
      exact hlacks.reason_eq hexplains
  case missing =>
    intro exchange hexchange hlacks
    have hlost : ¬call.PassesOver chroot exchange := fun hpassed =>
      hpassed.2.elim fun _ hmisses => hlacks.not_misses hmisses
    rcases hended exchange hexchange (.inl hlacks.errs) hlost with rfl | hforestalls
    · exact ⟨failure, rfl, hlacks.reason_eq hexplains⟩
    · exact absurd hforestalls hlacks.not_forestalled

/-! ## Calls -/

variable {σ α : Type}

/-- An errand that accounts for what it comes to over open links tells the kind of its failure. -/
theorem classified_of_accounts {call : ConsoleCall} {chroot : String}
    {errand : LinkedErrand (Recorded σ) α}
    (herrand : AccountsOver (call.terms chroot) links [] errand fun _ _ _ => True) (state : σ) :
    Classified call chroot false (errand.runFrom links ⟨state, []⟩).2.log
      (failureOf (errand.runFrom links ⟨state, []⟩).1.1) := by
  have hbears := herrand.bears state (by simp [Terms.Clean])
  rcases hrun : errand.runFrom links ⟨state, []⟩ with ⟨⟨failure | value, reached⟩, recorded⟩ <;>
    rw [hrun] at hbears
  · exact classified_of_settled hbears
  · exact classified_of_clean hbears.1

/-- Over closed links a call fails without an exchange. -/
theorem classified_of_closed {call : ConsoleCall} (chroot : String) {outcome : Option Failure}
    (houtcome : outcome = none ∧ call = .close ∨
      ∃ context, outcome = some (.connection context Links.closedCause)) :
    Classified call chroot true [] outcome := by
  rcases houtcome with ⟨rfl, rfl⟩ | ⟨context, rfl⟩
  · exact ⟨nofun, nofun, nofun, fun _ => ⟨rfl, fun hcall => absurd rfl hcall⟩, ⟨nofun, nofun⟩,
      nofun, nofun, nofun, nofun, nofun⟩
  · refine
      { succeeded := nofun
        ended := nofun
        forced := nofun
        refused := fun _ => ⟨rfl, fun _ => ⟨_, rfl, rfl⟩⟩
        notFound := ⟨?_, nofun⟩
        remote := ?_
        connection := ?_
        cause := ?_
        protocol := ?_
        missing := nofun }
    · rintro ⟨_, ⟨⟩, ⟨⟩⟩
    · rintro _ code ⟨⟩ ⟨⟩
    · rintro _ ⟨⟩
      exact ⟨fun _ => .inl rfl, fun _ => ⟨_, rfl⟩⟩
    · rintro _ cause ⟨⟩ hcause
      cases hcause
      exact ⟨message_eq_append_cause rfl, .inl ⟨rfl, rfl⟩⟩
    · rintro _ ⟨⟩
      exact ⟨nofun, nofun⟩

/-- An errand that closed links refuse tells the kind of its failure. -/
theorem classified_of_refused {call : ConsoleCall} {errand : LinkedErrand (Recorded σ) α}
    {links : Links (Recorded σ)} {state : σ} {context : Context}
    (hrun : errand.runFrom links ⟨state, []⟩ =
      ((.error (.connection context Links.closedCause), links), ⟨state, []⟩)) (chroot : String) :
    Classified call chroot true (errand.runFrom links ⟨state, []⟩).2.log
      (failureOf (errand.runFrom links ⟨state, []⟩).1.1) := by
  rw [hrun]
  exact classified_of_closed chroot (.inr ⟨context, rfl⟩)

/-- The exchanges of a call over closed links tell the kind of its failure. -/
theorem classified_run_of_closed (call : ConsoleCall) (chroot : String) {inner : Links σ}
    (hclosed : inner.slots.closed = true) (state : σ) :
    let run := (call.run.run inner.recorded).run ⟨state, []⟩
    Classified call chroot true run.2.log run.1.1.failure? := by
  have hrecorded : inner.recorded.slots.closed = true := hclosed
  cases call with
  | progress => exact classified_of_refused (reachCluster_bind_of_closed hrecorded _ _) chroot
  | commit => exact classified_of_refused (reachCluster_bind_of_closed hrecorded _ _) chroot
  | owners => exact classified_of_refused (reachRegistry_bind_of_closed hrecorded _ _) chroot
  | ownersByGroup => exact classified_of_refused (reachRegistry_bind_of_closed hrecorded _ _) chroot
  | close =>
      have hrun : ((Links.close.run inner.recorded).run ⟨state, []⟩).2.log = [] := by
        rw [Links.close_run, if_pos hrecorded]
      change Classified .close chroot true
        ((Links.close.run inner.recorded).run ⟨state, []⟩).2.log none
      rw [hrun]
      exact classified_of_closed chroot (.inl ⟨rfl, rfl⟩)

section
variable {inner : Links σ} (hopen : inner.slots.closed = false)
include hopen

/-- An errand on the cluster accounts for what it comes to from the attempt to reach the cluster. -/
theorem accounts_onCluster {chroot : String} {task : Cluster (Recorded σ) → Errand (Recorded σ) α}
    (htask : ∀ (cluster : Cluster σ) (log : List Exchange),
      Accounts (.cluster chroot) log (task cluster.recorded) fun _ _ => True) :
    AccountsOver (.cluster chroot) inner.recorded []
      (Links.reachCluster >>= fun cluster => LinkedErrand.ofTask (task cluster))
      fun _ _ _ => True := by
  refine (accounts_reachCluster _ hopen).bind ?_
  rintro _ reached more ⟨cluster, rfl⟩
  exact .ofTask (htask cluster more)

/-- So does an errand on the registry, under the chroot of the settings. -/
theorem accounts_onRegistry {terms : Terms}
    {task : Registry (Recorded σ) → String → Errand (Recorded σ) α}
    (hallows : ∀ answer, terms.allows (.connectRegistry inner.settings.registry answer))
    (hkeeps : ∀ answer, ¬terms.passes (.connectRegistry inner.settings.registry answer))
    (htask : ∀ (registry : Registry σ) (log : List Exchange), Accounts terms log
      (task registry.recorded inner.settings.registry.chroot) fun _ _ => True) :
    AccountsOver terms inner.recorded []
      (Links.reachRegistry >>= fun registry => Console.chroot >>= fun chroot =>
        LinkedErrand.ofTask (task registry chroot)) fun _ _ _ => True := by
  refine (accounts_reachRegistry hopen hallows hkeeps).bind ?_
  rintro _ reached _ ⟨hsettings, registry, rfl⟩
  refine accounts_chroot.bind ?_
  rintro _ _ more ⟨rfl, rfl⟩
  rw [hsettings]
  exact .ofTask (htask registry more)

/-- The exchanges of a call over open links tell the kind of its failure. -/
theorem classified_run_of_open (call : ConsoleCall) (state : σ) :
    let run := (call.run.run inner.recorded).run ⟨state, []⟩
    Classified call inner.settings.registry.chroot false run.2.log run.1.1.failure? := by
  let chroot := inner.settings.registry.chroot
  cases call with
  | progress group topic =>
      have haccounts : AccountsOver (terms chroot (.progress group topic)) inner.recorded []
          (Console.progress group topic) fun _ _ _ => True :=
        accounts_onCluster hopen fun cluster log =>
          Console.accounts_progressOn cluster group topic
      exact classified_of_accounts haccounts state
  | commit group topic batch =>
      have haccounts : AccountsOver (terms chroot (.commit group topic batch)) inner.recorded []
          (Console.commit group topic batch) fun _ _ _ => True :=
        accounts_onCluster hopen fun cluster log =>
          Commitment.accounts_commit cluster group topic batch
      exact classified_of_accounts haccounts state
  | owners group topic =>
      have hallows (answer : Reply Unit) : (terms chroot (.owners group topic)).allows
          (.connectRegistry inner.settings.registry answer) := ⟨trivial, nofun⟩
      have haccounts : AccountsOver (terms chroot (.owners group topic)) inner.recorded []
          (Console.owners group topic) fun _ _ _ => True :=
        accounts_onRegistry hopen hallows (fun _ => id) fun registry log =>
          Ownership.accounts_scan
      exact classified_of_accounts haccounts state
  | ownersByGroup topic =>
      have hallows (answer : Reply Unit) : (terms chroot (.ownersByGroup topic)).allows
          (.connectRegistry inner.settings.registry answer) := trivial
      have hkeeps (answer : Reply Unit) : ¬(terms chroot (.ownersByGroup topic)).passes
          (.connectRegistry inner.settings.registry answer) := by rintro ⟨_, ⟨⟩⟩
      have haccounts : AccountsOver (terms chroot (.ownersByGroup topic)) inner.recorded []
          (Console.ownersByGroup topic) fun _ _ _ => True :=
        accounts_onRegistry hopen hallows hkeeps fun registry log =>
          Ownership.accounts_scanGroups
      exact classified_of_accounts haccounts state
  | close =>
      have hclean : (terms inner.settings.registry.chroot .close).Clean
          ((Links.close.run inner.recorded).run ⟨state, []⟩).2.log := by
        intro exchange hexchange
        have hreleased : exchange = .closeCluster ∨ exchange = .closeRegistry :=
          mem_close_recorded hexchange
        refine ⟨hreleased, fun hspoiled => ?_⟩
        rcases hreleased with rfl | rfl <;> exact hspoiled.errs id
      exact classified_of_clean hclean

end

end ConsoleCall

/-- A call does over recorded links what it does over the links inside, and its exchanges tell
the kind of its failure. Layers of context around a failure change neither its reason nor the
message that they stand before. -/
theorem ConsoleCall.run_classified (call : ConsoleCall) (links : Links σ) (state : σ) :
    let run := (call.run.run links).run state
    let recording := (call.run.run links.recorded).run ⟨state, []⟩
    recording.1.1 = run.1.1 ∧ recording.2.state = run.2 ∧
      Classified call links.settings.registry.chroot links.slots.closed recording.2.log
        run.1.1.failure? ∧
      ∀ (layer : Context) (failure : Failure), (failure.within layer).reason = failure.reason ∧
        (failure.within layer).message = layer.text ++ ": " ++ failure.message := by
  intro run recording
  obtain ⟨hanswer, hstate⟩ := call.mirrors_run links ⟨state, []⟩
  have hsame : recording.1.1 = run.1.1 := congrArg Prod.fst hanswer
  refine ⟨hsame, hstate, ?_, fun layer failure => ⟨rfl, Ownership.message_within layer failure⟩⟩
  rw [← hsame]
  cases hclosed : links.slots.closed with
  | true => exact classified_run_of_closed call _ hclosed state
  | false => exact classified_run_of_open hclosed call state

end ConsumerGroups
