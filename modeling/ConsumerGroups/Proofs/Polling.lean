import Mathlib.Data.List.ReduceOption
import Mathlib.Logic.Relation
import ConsumerGroups.Proofs.Timed

/-! # Polling tasks in virtual time

Tasks that wait for replies are polled in their order, at one instant after another. A task that
fails sends its failure into a channel that has room for one failure of each task; once all tasks
are done, the failure that was sent first is the answer. What this comes to is the failure that
arrives first: polling settles the outcomes of the tasks. In whatever order tasks are visited, the
channel refuses none of their failures.
-/

namespace ConsumerGroups.Polling

open Timed

variable {ε α β γ : Type}

/-- What has arrived of a reply by an instant. -/
def arrived? (now : Nat) (reply : Timed α) : Option α :=
  if reply.time ≤ now then some reply.value else none

/-- A task that waits for two replies at the same time, and then makes something of both. -/
structure Task (ε α β γ : Type) where
  first : Timed (Except ε α)
  second : Timed (Except ε β)
  next : α × β → Except ε γ

namespace Task

/-- Looks at what has arrived, the first reply before the second. A failure ends the task, also
while the other reply is still on its way. -/
def poll (task : Task ε α β γ) (now : Nat) : Option (Except ε γ) :=
  match arrived? now task.first, arrived? now task.second with
  | some (.error failure), _ => some (.error failure)
  | _, some (.error failure) => some (.error failure)
  | some (.ok a), some (.ok b) => some (task.next (a, b))
  | _, _ => none

/-- What a task comes to, with the time at which it is there. -/
def outcome (task : Task ε α β γ) : Timed (Except ε γ) :=
  (task.first.both task.second).andThen task.next

/-- Nothing comes of a task before its time. -/
theorem poll_before {task : Task ε α β γ} {now : Nat} (hearly : now < task.outcome.time) :
    task.poll now = none := by
  rcases task with ⟨⟨early, first⟩, ⟨late, second⟩, next⟩
  cases first <;> cases second <;> simp only [outcome, both, andThen] at hearly <;>
    grind [poll, arrived?]

/-- At its time a task gives its outcome. -/
theorem poll_at_time (task : Task ε α β γ) :
    task.poll task.outcome.time = some task.outcome.value := by
  rcases task with ⟨⟨early, first⟩, ⟨late, second⟩, next⟩
  cases first <;> cases second <;> simp only [outcome, both, andThen] <;>
    grind [poll, arrived?, Except.bind]

end Task

/-! ## Rounds -/

/-- A task that is not done yet, or what is left of one: the value of a success. -/
inductive Slot (ε α β γ : Type)
  | waiting (task : Task ε α β γ)
  | done (value : Option γ)

/-- Sends a failure into a channel; a channel that is full refuses it. -/
def trySend (capacity : Nat) (failure : ε) : StateM (List ε) Unit :=
  modify fun sent => if sent.length < capacity then sent ++ [failure] else sent

/-- Polls a task unless it is done. A failure is sent. -/
def Slot.visit (capacity now : Nat) : Slot ε α β γ → StateM (List ε) (Slot ε α β γ)
  | .done value => pure (.done value)
  | .waiting task =>
    match task.poll now with
    | none => pure (.waiting task)
    | some (.ok value) => pure (.done (some value))
    | some (.error failure) => do
      trySend capacity failure
      pure (.done none)

/-- Visits all slots in their order, at one instant after another. -/
def rounds (capacity : Nat) (instants : List Nat) (slots : List (Slot ε α β γ)) :
    StateM (List ε) (List (Slot ε α β γ)) :=
  instants.foldlM (fun slots now => slots.mapM (Slot.visit capacity now)) slots

/-- What is left of a slot, if it is done. -/
def Slot.left? : Slot ε α β γ → Option (Option γ)
  | .waiting _ => none
  | .done value => some value

/-- What the tasks come to if they are polled at the given instants: the failure that was sent
first, or else the values of all of them. Nothing, unless all of them are done by then. -/
def run (instants : List Nat) (tasks : List (Task ε α β γ)) : Option (Except ε (List γ)) :=
  let (slots, sent) := (rounds tasks.length instants (tasks.map .waiting)).run []
  (slots.mapM Slot.left?).map fun values =>
    match sent with
    | failure :: _ => .error failure
    | [] => .ok values.reduceOption

/-! ## What a round does -/

/-- The failure that a task sends at an instant. -/
def sentAt? (now : Nat) (task : Task ε α β γ) : Option ε :=
  match task.outcome.value with
  | .error failure => if task.outcome.time = now then some failure else none
  | .ok _ => none

/-- What has become of a task once it has been polled at some instants. -/
def slotAfter (past : List Nat) (task : Task ε α β γ) : Slot ε α β γ :=
  if task.outcome.time ∈ past then .done task.outcome.value.toOption else .waiting task

/-- The tasks that are not done after some instants. -/
def waitingAfter (past : List Nat) (tasks : List (Task ε α β γ)) : Nat :=
  tasks.countP (·.outcome.time ∉ past)

theorem sentAt?_eq_some {now : Nat} {task : Task ε α β γ} {failure : ε} :
    sentAt? now task = some failure ↔ task.outcome = ⟨now, .error failure⟩ := by
  unfold sentAt?
  rcases task.outcome with ⟨time, _ | _⟩ <;> simp [and_comm]

/-- When the time of every task is over, all of them are done. -/
theorem mapM_left? {past : List Nat} {tasks : List (Task ε α β γ)}
    (hpast : ∀ task ∈ tasks, task.outcome.time ∈ past) :
    (tasks.map (slotAfter past)).mapM Slot.left? =
      some (tasks.map (·.outcome.value.toOption)) := by
  induction tasks with
  | nil => rfl
  | cons task rest ih =>
      obtain ⟨htask, hrest⟩ := List.forall_mem_cons.mp hpast
      rw [List.map_cons, List.mapM_cons, ih hrest, slotAfter, if_pos htask]
      rfl

theorem visit_waiting_run (capacity now : Nat) (task : Task ε α β γ) (sent : List ε) :
    ((Slot.waiting task).visit capacity now).run sent =
      match task.poll now with
      | none => (.waiting task, sent)
      | some (.ok value) => (.done (some value), sent)
      | some (.error failure) =>
        (.done none, if sent.length < capacity then sent ++ [failure] else sent) := by
  rw [Slot.visit]
  rcases task.poll now with _ | _ | _ <;> rfl

/-- A visit at the next instant, with room in the channel for a task that still waits. -/
theorem visit_run {capacity now : Nat} {past : List Nat} {task : Task ε α β γ} {sent : List ε}
    (hnow : now ∉ past) (hnext : task.outcome.time ∈ past ∨ now ≤ task.outcome.time)
    (hroom : task.outcome.time ∉ past → sent.length < capacity) :
    ((slotAfter past task).visit capacity now).run sent =
      (slotAfter (past ++ [now]) task, sent ++ (sentAt? now task).toList) := by
  have hsilent (hother : task.outcome.time ≠ now) : sentAt? now task = none :=
    Option.eq_none_iff_forall_ne_some.mpr fun failure hsent =>
      hother (congrArg Timed.time (sentAt?_eq_some.mp hsent))
  by_cases hpast : task.outcome.time ∈ past
  · have hother : task.outcome.time ≠ now := fun heq => hnow (heq ▸ hpast)
    simp only [slotAfter, hpast, List.mem_append, true_or, if_true, hsilent hother,
      Option.toList_none, List.append_nil]
    rfl
  · simp only [slotAfter, hpast, if_false, List.mem_append, false_or, List.mem_singleton,
      visit_waiting_run]
    rcases Nat.lt_or_eq_of_le (hnext.resolve_left hpast) with hearly | hready
    · have hother : task.outcome.time ≠ now := Nat.ne_of_gt hearly
      simp [Task.poll_before hearly, hsilent hother, hother]
    · subst hready
      rw [task.poll_at_time]
      cases hvalue : task.outcome.value with
      | ok value => simp [sentAt?, hvalue, Except.toOption]
      | error failure => simp [sentAt?, hvalue, Except.toOption, hroom hpast]

theorem waitingAfter_cons (past : List Nat) (task : Task ε α β γ) (rest : List (Task ε α β γ)) :
    waitingAfter past (task :: rest) =
      (if task.outcome.time ∈ past then 0 else 1) + waitingAfter past rest := by
  by_cases hpast : task.outcome.time ∈ past <;> simp [waitingAfter, hpast, Nat.add_comm]

/-- A round sends at most one failure for each task that is done with it. -/
theorem sent_add_waiting_le {now : Nat} {past : List Nat} (hnow : now ∉ past)
    (tasks : List (Task ε α β γ)) :
    (tasks.filterMap (sentAt? now)).length + waitingAfter (past ++ [now]) tasks ≤
      waitingAfter past tasks := by
  induction tasks with
  | nil => exact Nat.le_refl _
  | cons task rest ih =>
      simp only [waitingAfter_cons, List.mem_append, List.mem_singleton]
      cases hsent : sentAt? now task with
      | none =>
          rw [List.filterMap_cons_none hsent]
          grind
      | some failure =>
          have htime : task.outcome.time = now := congrArg Timed.time (sentAt?_eq_some.mp hsent)
          rw [List.filterMap_cons_some hsent, List.length_cons]
          grind

/-- A round at the next instant finishes the tasks whose time it is, and sends their failures in
the order of the tasks. None of them is refused. -/
theorem round_run {capacity now : Nat} {past : List Nat} {tasks : List (Task ε α β γ)}
    {sent : List ε} (hnow : now ∉ past)
    (hnext : ∀ task ∈ tasks, task.outcome.time ∈ past ∨ now ≤ task.outcome.time)
    (hroom : sent.length + waitingAfter past tasks ≤ capacity) :
    ((tasks.map (slotAfter past)).mapM (Slot.visit capacity now)).run sent =
      (tasks.map (slotAfter (past ++ [now])), sent ++ tasks.filterMap (sentAt? now)) := by
  induction tasks generalizing sent with
  | nil => simp; rfl
  | cons task rest ih =>
      obtain ⟨htask, hrest⟩ := List.forall_mem_cons.mp hnext
      rw [waitingAfter_cons] at hroom
      have hfree : task.outcome.time ∉ past → sent.length < capacity := by grind
      rw [List.map_cons, Results.mapM_cons_run, visit_run hnow htask hfree, ih hrest]
      · cases hsent : sentAt? now task with
        | none => simp [hsent]
        | some failure => simp [hsent]
      · cases hsent : sentAt? now task with
        | none => grind
        | some failure =>
            have htime : task.outcome.time = now := congrArg Timed.time (sentAt?_eq_some.mp hsent)
            simp only [htime, hnow, if_false] at hroom
            simp
            omega

/-- Rounds at ascending instants, among which is the time of every task, finish each task at its
time. What they send comes in the order of time, and at one instant in the order of the tasks. -/
theorem rounds_run {capacity : Nat} {past rest : List Nat} {tasks : List (Task ε α β γ)}
    {sent : List ε} (hascending : (past ++ rest).Pairwise (· < ·))
    (hready : ∀ task ∈ tasks, task.outcome.time ∈ past ++ rest)
    (hroom : sent.length + waitingAfter past tasks ≤ capacity) :
    (rounds capacity rest (tasks.map (slotAfter past))).run sent =
      (tasks.map (slotAfter (past ++ rest)),
        sent ++ rest.flatMap fun now => tasks.filterMap (sentAt? now)) := by
  induction rest generalizing past sent with
  | nil => simp [rounds]; rfl
  | cons now rest ih =>
      have hsplit : past ++ now :: rest = (past ++ [now]) ++ rest := by simp
      have hbefore := List.pairwise_append.mp hascending
      have hnow : now ∉ past := fun hmem =>
        Nat.lt_irrefl _ (hbefore.2.2 now hmem now List.mem_cons_self)
      have hnext : ∀ task ∈ tasks, task.outcome.time ∈ past ∨ now ≤ task.outcome.time := by
        intro task htask
        rcases List.mem_append.mp (hready task htask) with hpast | hrest
        · exact .inl hpast
        · rcases List.mem_cons.mp hrest with heq | hlater
          · exact .inr (Nat.le_of_eq heq.symm)
          · exact .inr (Nat.le_of_lt (List.rel_of_pairwise_cons hbefore.2.1 hlater))
      have hcount := sent_add_waiting_le hnow tasks
      have hnextRoom : (sent ++ tasks.filterMap (sentAt? now)).length +
          waitingAfter (past ++ [now]) tasks ≤ capacity := by
        rw [List.length_append]
        omega
      rw [hsplit] at hascending hready ⊢
      have hrest := ih hascending hready hnextRoom
      rw [rounds] at hrest
      rw [rounds, List.foldlM_cons, Results.bind_run, round_run hnow hnext hroom]
      simp [hrest]

section Settling

variable {instants : List Nat} {tasks : List (Task ε α β γ)}

/-- A failure that is sent before all others arrives first. -/
theorem failsFirst_of_head?_sent (hascending : instants.Pairwise (· < ·))
    (hready : ∀ task ∈ tasks, task.outcome.time ∈ instants) {failure : ε}
    (hhead : (instants.flatMap fun now => tasks.filterMap (sentAt? now)).head? = some failure) :
    ∃ place time, FailsFirst (tasks.map Task.outcome) place ⟨time, failure⟩ := by
  rw [List.head?_flatMap] at hhead
  obtain ⟨before, now, after, rfl, hnow, hsilent⟩ := List.findSome?_eq_some_iff.mp hhead
  rw [List.head?_filterMap] at hnow
  obtain ⟨passed, task, later, rfl, hsent, hpassed⟩ := List.findSome?_eq_some_iff.mp hnow
  refine ⟨passed.length, now, by simp [sentAt?_eq_some.mp hsent], fun other time cause hother => ?_⟩
  rw [List.getElem?_map, Option.map_eq_some_iff] at hother
  obtain ⟨found, hfound, houtcome⟩ := hother
  have hmem := List.mem_of_getElem? hfound
  have hfails : sentAt? time found = some cause := sentAt?_eq_some.mpr houtcome
  have htime : time ∈ before ++ now :: after := by
    have := hready found hmem
    rwa [houtcome] at this
  rcases List.mem_append.mp htime with hearlier | hlater
  · -- No failure is sent before.
    have hnone := hsilent time hearlier
    rw [List.head?_eq_none_iff, List.filterMap_eq_nil_iff] at hnone
    exact absurd (hfails.symm.trans (hnone found hmem)) (Option.some_ne_none cause)
  · rcases List.mem_cons.mp hlater with rfl | hafter
    · -- Of those that are sent at the same instant, earlier tasks send none.
      refine .inr ⟨rfl, Nat.le_of_not_lt fun hless => ?_⟩
      rw [List.getElem?_append_left hless] at hfound
      exact absurd (hfails.symm.trans (hpassed found (List.mem_of_getElem? hfound)))
        (Option.some_ne_none cause)
    · exact .inl (List.rel_of_pairwise_cons (List.pairwise_append.mp hascending).2.1 hafter)

/-- What is sent starts with the failure that the tasks settle as, and nothing is sent if they
settle as values. -/
theorem head?_sent (hascending : instants.Pairwise (· < ·))
    (hready : ∀ task ∈ tasks, task.outcome.time ∈ instants) (failure : ε) :
    (instants.flatMap fun now => tasks.filterMap (sentAt? now)).head? = some failure ↔
      settle (tasks.map Task.outcome) = .error failure := by
  rw [settle_eq_error_iff]
  refine ⟨failsFirst_of_head?_sent hascending hready, ?_⟩
  rintro ⟨place, time, hfirst⟩
  obtain ⟨task, htask, houtcome⟩ := List.mem_map.mp (List.mem_of_getElem? hfirst.failed)
  have htime : time ∈ instants := by
    have := hready task htask
    rwa [houtcome] at this
  have hsent : failure ∈ instants.flatMap fun now => tasks.filterMap (sentAt? now) :=
    List.mem_flatMap.mpr ⟨time, htime,
      List.mem_filterMap.mpr ⟨task, htask, sentAt?_eq_some.mpr houtcome⟩⟩
  cases hhead : (instants.flatMap fun now => tasks.filterMap (sentAt? now)).head? with
  | none => exact absurd (List.head?_eq_none_iff.mp hhead) (List.ne_nil_of_mem hsent)
  | some other =>
      obtain ⟨_, _, hother⟩ := failsFirst_of_head?_sent hascending hready hhead
      exact congrArg some (congrArg Timed.value (hother.unique hfirst).2)

/-- Tasks that are polled at ascending instants, among which is the time of each, come to what
their outcomes settle as. -/
theorem run_eq_settle (hascending : instants.Pairwise (· < ·))
    (hready : ∀ task ∈ tasks, task.outcome.time ∈ instants) :
    run instants tasks = some (settle (tasks.map Task.outcome)) := by
  have hstart : tasks.map Slot.waiting = tasks.map (slotAfter []) := by simp [slotAfter]
  have hroom : ([] : List ε).length + waitingAfter [] tasks ≤ tasks.length := by
    simp [waitingAfter]
  have hrounds := rounds_run (List.nil_append instants ▸ hascending)
    (List.nil_append instants ▸ hready) hroom
  rw [run, hstart, hrounds]
  simp only [List.nil_append, mapM_left? hready, Option.map_some]
  have hhead := head?_sent hascending hready
  cases hsettle : settle (tasks.map Task.outcome) with
  | error failure =>
      obtain ⟨rest, hrest⟩ := List.head?_eq_some_iff.mp ((hhead failure).mpr hsettle)
      rw [hrest]
  | ok values =>
      have hnone : (instants.flatMap fun now => tasks.filterMap (sentAt? now)) = [] := by
        cases hsent : instants.flatMap fun now => tasks.filterMap (sentAt? now) with
        | nil => rfl
        | cons failure rest =>
            rw [hsent] at hhead
            have := (hhead failure).mp rfl
            rw [hsettle] at this
            cases this
      have hvalues : tasks.map (·.outcome.value.toOption) = values.map some := by
        have hall := congrArg (List.map Except.toOption) (settle_eq_ok.mp hsettle)
        simpa [Function.comp_def, Except.toOption] using hall
      rw [hnone, hvalues]
      simp [List.reduceOption]

end Settling

/-! ## Visits in any order -/

section Visits

variable {capacity : Nat}

/-- Some slot is visited, at some instant. -/
inductive Visit (capacity : Nat) :
    List (Slot ε α β γ) × List ε → List (Slot ε α β γ) × List ε → Prop
  | slot (before after : List (Slot ε α β γ)) {slot visited : Slot ε α β γ} {sent reached : List ε}
      (now : Nat) (hvisit : (slot.visit capacity now).run sent = (visited, reached)) :
      Visit capacity (before ++ slot :: after, sent) (before ++ visited :: after, reached)

/-- What tasks leave behind, in their slots and in the channel, if they are visited in any order and
at any instants. -/
def Reaches (capacity : Nat) (tasks : List (Task ε α β γ)) (slots : List (Slot ε α β γ))
    (sent : List ε) : Prop :=
  Relation.ReflTransGen (Visit capacity) (tasks.map .waiting, []) (slots, sent)

/-- A slot whose task has failed. -/
def Slot.failed : Slot ε α β γ → Bool
  | .done none => true
  | _ => false

/-- A visit sends a failure exactly if it ends a task with one. -/
theorem Slot.visit_cases {slot visited : Slot ε α β γ} {now : Nat} {sent reached : List ε}
    (hvisit : (slot.visit capacity now).run sent = (visited, reached)) :
    (visited.failed = slot.failed ∧ reached = sent) ∨
      (slot.failed = false ∧ visited.failed = true ∧
        ∃ failure, ((trySend capacity failure).run sent).2 = reached) := by
  cases slot with
  | done value =>
      cases hvisit
      exact .inl ⟨rfl, rfl⟩
  | waiting task =>
      rw [visit_waiting_run] at hvisit
      split at hvisit <;> cases hvisit
      · exact .inl ⟨rfl, rfl⟩
      · exact .inl ⟨rfl, rfl⟩
      · exact .inr ⟨rfl, rfl, _, rfl⟩

/-- With room for one failure of each slot, a channel that holds one failure for each task that has
failed still does so after a visit. -/
theorem Visit.length_sent {slots slots' : List (Slot ε α β γ)} {sent sent' : List ε}
    (hvisit : Visit capacity (slots, sent) (slots', sent')) (hroom : slots.length ≤ capacity)
    (hsent : sent.length = slots.countP Slot.failed) :
    slots'.length = slots.length ∧ sent'.length = slots'.countP Slot.failed := by
  cases hvisit with
  | slot before after now hvisit =>
      refine ⟨by simp, ?_⟩
      obtain ⟨hsame, rfl⟩ | ⟨hwaiting, hfailed, failure, rfl⟩ := Slot.visit_cases hvisit
      · simpa [hsame, List.countP_append, List.countP_cons] using hsent
      · -- The slot that is visited has not failed yet, so that there is room for its failure.
        have hothers : sent.length = before.countP Slot.failed + after.countP Slot.failed := by
          simpa [hwaiting, List.countP_append, List.countP_cons] using hsent
        have hfree : sent.length < capacity := by
          have hbefore : before.countP Slot.failed ≤ before.length := List.countP_le_length
          have hafter : after.countP Slot.failed ≤ after.length := List.countP_le_length
          simp only [List.length_append, List.length_cons] at hroom
          omega
        have hnext : ((trySend capacity failure).run sent).2 = sent ++ [failure] := if_pos hfree
        simp [hnext, hothers, hfailed, List.countP_append, Nat.add_assoc]

/-- However tasks are visited, a channel with room for one failure of each holds the failures of all
that have failed: it refuses none of them. -/
theorem Reaches.length_sent {tasks : List (Task ε α β γ)} {slots : List (Slot ε α β γ)}
    {sent : List ε} (hreaches : Reaches capacity tasks slots sent)
    (hroom : tasks.length ≤ capacity) :
    slots.length = tasks.length ∧ sent.length = slots.countP Slot.failed := by
  unfold Reaches at hreaches
  generalize hstate : (slots, sent) = state at hreaches
  induction hreaches generalizing slots sent with
  | refl =>
      cases hstate
      have hnone : (tasks.map Slot.waiting).countP Slot.failed = 0 :=
        List.countP_eq_zero.mpr (by simp [Slot.failed])
      exact ⟨List.length_map _, hnone.symm⟩
  | tail _ hvisit ih =>
      subst hstate
      obtain ⟨hlength, hsent⟩ := ih rfl
      obtain ⟨hlength', hsent'⟩ := hvisit.length_sent (hlength.symm ▸ hroom) hsent
      exact ⟨hlength'.trans hlength, hsent'⟩

end Visits

end ConsumerGroups.Polling
