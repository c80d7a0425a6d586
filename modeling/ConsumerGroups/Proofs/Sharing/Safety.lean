import ConsumerGroups.Proofs.Sharing.Visits

/-! # Safety of shared links

Whatever its callers do, and in whatever order, a room makes each connection once, hands out the
same one to all, and ends it once. What holds at a moment of a run is read off the books of that
moment. What each caller is served with is what links come to that have one user.
-/

namespace ConsumerGroups.Sharing

variable {ι κ τ : Type}

variable [DecidableEq ι] {events : List (ι × Event κ τ)} {room next : Room ι κ τ} {who : ι}

/-! ## Moments -/

omit [DecidableEq ι] in
/-- The slots are closed once somebody has shut them. -/
theorem Sound.shut (hsound : Sound events room) :
    room.slots.closed = true ↔ ∃ who, (who, .shut) ∈ events := by
  obtain ⟨stage, -, hbooks⟩ := hsound
  exact hbooks.shut

/-- An event under the lock is a move, made while the books are right. -/
theorem Sound.moved (hsound : Sound events room) {event : Event κ τ}
    (hstep : Step room (who, event) next)
    (hinside : ∀ visit, event ≠ .called visit ∧ event ≠ .entered visit) :
    ∃ stage nextSlots nextStage, Move room.slots stage event nextSlots nextStage ∧
      Books events room.slots stage := by
  cases hstep with
  | call visit haway => exact absurd rfl (hinside visit).1
  | @enter _ visit hwaiting hfree => exact absurd rfl (hinside visit).2
  | work hmove => exact ⟨_, _, _, hmove, hsound.books hmove⟩

/-- An attempt is made only in open slots, and only if none has succeeded. -/
theorem Sound.dialed (hsound : Sound events room) {kind : Kind}
    (hstep : Step room (who, .dialed kind) next) :
    room.slots.closed = false ∧ opened kind events = [] := by
  obtain ⟨stage, _, _, hmove, hbooks⟩ := hsound.moved hstep (by simp)
  cases hmove with
  | dial hempty =>
      obtain ⟨hopen, hslot⟩ := Slots.access_eq_empty.mp hempty
      refine ⟨hopen, ?_⟩
      rw [(hbooks.kept hopen kind).1, hslot]
      rfl

/-- An attempt succeeds only in open slots. -/
theorem Sound.connected (hsound : Sound events room) {connection : Connection κ τ}
    (hstep : Step room (who, .connected connection) next) : room.slots.closed = false := by
  obtain ⟨stage, _, _, hmove, hbooks⟩ := hsound.moved hstep (by simp)
  cases hmove with
  | connect => exact hbooks.fits.1

/-- In closed slots nobody leaves with a connection. -/
theorem Sound.refused (hsound : Sound events room) (hclosed : room.slots.closed = true) {kind : Kind}
    {result : Except Failure (Connection κ τ)}
    (hstep : Step room (who, .left (.reached kind result)) next) :
    result = .error (.connection kind.context Links.closedCause) := by
  obtain ⟨stage, _, _, hmove, hbooks⟩ := hsound.moved hstep (by simp)
  cases hmove with
  | leave hdone =>
      cases hdone with
      | refused => rfl
      | found haccess =>
          have hopen := (Slots.access_eq_connected.mp haccess).1
          rw [hclosed] at hopen
          cases hopen
      | dialed =>
          have hopen := hbooks.fits.1
          rw [hclosed] at hopen
          cases hopen

/-- A connection that is hung up was made, and no other of its sort was hung up before. -/
theorem Sound.hungUp (hsound : Sound events room) {connection : Connection κ τ}
    (hstep : Step room (who, .hungUp connection) next) :
    connection ∈ opened connection.kind events ∧ Sharing.hungUp connection.kind events = [] := by
  obtain ⟨stage, _, _, hmove, hbooks⟩ := hsound.moved hstep (by simp)
  cases hmove with
  | hangUp =>
      have hopened := hbooks.released hbooks.fits connection.kind
      have honce := hbooks.once connection.kind
      rw [hopened] at honce
      rw [hopened]
      simp only [Stage.pending, List.filter_cons, decide_true, if_true, List.length_append,
        List.length_cons] at honce ⊢
      refine ⟨by simp, List.eq_nil_of_length_eq_zero (by omega)⟩

/-- When a caller has closed the links, all connections have been hung up. -/
theorem Sound.closed (hsound : Sound events room)
    (hstep : Step room (who, .left .closed) next) :
    room.slots.closed = true ∧ ∀ kind, opened kind events = Sharing.hungUp kind events := by
  obtain ⟨stage, _, _, hmove, hbooks⟩ := hsound.moved hstep (by simp)
  have hnone (hclosed : room.slots.closed = true) (hpending : ∀ kind, stage.pending kind = [])
      (kind : Kind) : opened kind events = Sharing.hungUp kind events := by
    rw [hbooks.released hclosed kind, hpending kind, List.append_nil]
  cases hmove with
  | leave hdone =>
      cases hdone with
      | shutBefore hclosed => exact ⟨hclosed, hnone hclosed fun _ => rfl⟩
      | released => exact ⟨hbooks.fits, hnone hbooks.fits fun _ => rfl⟩

/-- A caller at a stage that holds the lock always has a move. -/
theorem Stage.exists_move {stage : Stage κ τ} (hholds : stage.holds = true) (slots : Slots κ τ) :
    ∃ event nextSlots nextStage, Move slots stage event nextSlots nextStage := by
  cases stage with
  | away => cases hholds
  | waiting visit => cases hholds
  | inside visit =>
      cases visit with
      | reach kind =>
          cases haccess : slots.access (held slots kind) with
          | closed => exact ⟨_, _, _, .leave (.refused haccess)⟩
          | connected connection => exact ⟨_, _, _, .leave (.found haccess)⟩
          | empty => exact ⟨_, _, _, .dial haccess⟩
      | close =>
          cases hclosed : slots.closed with
          | false => exact ⟨_, _, _, .shut hclosed⟩
          | true => exact ⟨_, _, _, .leave (.shutBefore hclosed)⟩
  | dialing kind => exact ⟨_, _, _, .fail []⟩
  | releasing rest =>
      cases rest with
      | nil => exact ⟨_, _, _, .leave .released⟩
      | cons connection rest => exact ⟨_, _, _, .hangUp⟩
  | leaving kind result => exact ⟨_, _, _, .leave .dialed⟩

/-! ## Runs -/

/-- What is true of all that happened, and of the room it led to. -/
structure Safe (events : List (ι × Event κ τ)) (room : Room ι κ τ) : Prop where
  one_attempt : ∀ {who other kind wanted}, room.stage who = .dialing kind →
    room.stage other = .dialing wanted → who = other ∧ kind = wanted
  one_connection : ∀ kind, (opened kind events).length ≤ 1
  no_attempt_after : ∀ {before after who connection},
    events = before ++ (who, .connected connection) :: after →
      ∀ other, (other, .dialed connection.kind) ∉ after
  same_connection : ∀ {who kind connection},
    (who, .left (.reached kind (.ok connection))) ∈ events → opened kind events = [connection]
  failure_keeps : ∀ {before after who kind cause},
    events = before ++ (who, .failed kind cause) :: after →
      ∃ past attempt earlier later, before = past ++ (who, .dialed kind) :: attempt ∧
        (∀ event ∈ attempt, event.1 ≠ who) ∧ Run {} past earlier ∧
        Run earlier ((who, .dialed kind) :: attempt ++ [(who, .failed kind cause)]) later ∧
        Run later after room ∧ later.slots = earlier.slots
  failure_retried : ∀ {before between during after who other kind cause event},
    events = before ++ ((who, .failed kind cause) :: between ++
      (other, .entered (.reach kind)) :: during ++ [(other, event)]) ++ after →
    (∀ event ∈ between, event.2 ≠ .shut ∧ event.2 ≠ .entered (.reach kind)) →
    (∀ answer, (other, .left answer) ∉ during) →
      attempts (during ++ [(other, event)]) = [(other, kind)]
  no_attempt_once_shut : ∀ {before after who}, events = before ++ (who, .shut) :: after →
    ∀ other kind, (other, .dialed kind) ∉ after
  refused_once_shut : ∀ {before after who}, events = before ++ (who, .shut) :: after →
    ∀ other kind result, (other, .left (.reached kind result)) ∈ after →
      result = .error (.connection kind.context Links.closedCause)
  hung_up_once : ∀ {before after who connection},
    events = before ++ (who, .hungUp connection) :: after →
      (∃ other, (other, .connected connection) ∈ before) ∧
        ∀ other, (other, .hungUp connection) ∉ before ++ after
  no_leak : ∀ {before after who}, events = before ++ (who, .left .closed) :: after →
    (∃ other, (other, .shut) ∈ before) ∧
      ∀ other connection, (other, .connected connection) ∈ events →
        ∃ closer, (closer, .hungUp connection) ∈ before
  goes_on : ∀ {who}, room.stage who ≠ .away →
    ∃ mover event next, room.stage mover ≠ .away ∧ Step room (mover, event) next

namespace Run

variable {before after : List (ι × Event κ τ)} {kind : Kind} {connection : Connection κ τ}

theorem sound (hrun : Run {} events room) : Sound events room :=
  Sound.start.run hrun

/-- Before each event of a run the room is sound. -/
theorem moment {event : ι × Event κ τ} (hrun : Run {} (before ++ event :: after) room) :
    ∃ earlier later, Sound before earlier ∧ Step earlier event later := by
  obtain ⟨earlier, later, hbefore, hstep, -⟩ := hrun.around
  exact ⟨earlier, later, hbefore.sound, hstep⟩

/-- An event in the later part of a run has its own moment. -/
theorem moment_after {event later : ι × Event κ τ}
    (hrun : Run {} (before ++ event :: after) room) (hlater : later ∈ after) :
    ∃ between earlier next, Sound (before ++ event :: between) earlier ∧
      Step earlier later next := by
  obtain ⟨between, rest, rfl⟩ := List.append_of_mem hlater
  rw [← List.cons_append, ← List.append_assoc] at hrun
  obtain ⟨earlier, next, hsound, hstep⟩ := hrun.moment
  exact ⟨between, earlier, next, hsound, hstep⟩

/-- Two callers are never in an attempt at once. -/
theorem one_attempt (hrun : Run {} events room) {other : ι} {wanted : Kind}
    (hwho : room.stage who = .dialing kind) (hother : room.stage other = .dialing wanted) :
    who = other ∧ kind = wanted := by
  obtain ⟨stage, hoccupied, -⟩ := hrun.sound
  have hholds : (room.stage who).holds = true := by
    rw [hwho]
    rfl
  obtain ⟨-, -, houtside⟩ := hoccupied.eq_of_holds hholds
  have hsame : other = who := by
    by_contra hne
    have hfree := houtside other hne
    rw [hother] at hfree
    cases hfree
  subst hsame
  rw [hwho] at hother
  cases hother
  exact ⟨rfl, rfl⟩

theorem one_connection (hrun : Run {} events room) (kind : Kind) :
    (opened kind events).length ≤ 1 := by
  obtain ⟨stage, -, hbooks⟩ := hrun.sound
  exact hbooks.once kind

/-- Once an attempt has succeeded there is no other one of its sort. -/
theorem no_attempt_after (hrun : Run {} (before ++ (who, .connected connection) :: after) room)
    (other : ι) : (other, .dialed connection.kind) ∉ after := by
  intro hdialed
  obtain ⟨between, earlier, next, hsound, hstep⟩ := hrun.moment_after hdialed
  have hmade : connection ∈ opened connection.kind
      (before ++ (who, .connected connection) :: between) :=
    mem_opened.mpr ⟨rfl, who, by simp⟩
  rw [(hsound.dialed hstep).2] at hmade
  cases hmade

/-- Whoever is given a connection is given the one that was made. -/
theorem same_connection (hrun : Run {} events room)
    (hleft : (who, .left (.reached kind (.ok connection))) ∈ events) :
    opened kind events = [connection] := by
  obtain ⟨stage, -, hbooks⟩ := hrun.sound
  have hmade := hbooks.answered who kind connection hleft
  have honce := hbooks.once kind
  cases hopened : opened kind events with
  | nil =>
      rw [hopened] at hmade
      cases hmade
  | cons first rest =>
      rw [hopened] at hmade honce
      obtain rfl : rest = [] := List.eq_nil_of_length_eq_zero (by simpa using honce)
      rw [List.mem_singleton.mp hmade]

theorem no_attempt_once_shut (hrun : Run {} (before ++ (who, .shut) :: after) room) (other : ι)
    (kind : Kind) : (other, .dialed kind) ∉ after := by
  intro hdialed
  obtain ⟨between, earlier, next, hsound, hstep⟩ := hrun.moment_after hdialed
  have hopen := (hsound.dialed hstep).1
  rw [hsound.shut.mpr ⟨who, by simp⟩] at hopen
  cases hopen

theorem refused_once_shut (hrun : Run {} (before ++ (who, .shut) :: after) room) (other : ι)
    (kind : Kind) (result : Except Failure (Connection κ τ))
    (hleft : (other, .left (.reached kind result)) ∈ after) :
    result = .error (.connection kind.context Links.closedCause) := by
  obtain ⟨between, earlier, next, hsound, hstep⟩ := hrun.moment_after hleft
  exact hsound.refused (hsound.shut.mpr ⟨who, by simp⟩) hstep

/-- What is hung up was made here, and is hung up only then. -/
theorem hung_up_once (hrun : Run {} (before ++ (who, .hungUp connection) :: after) room) :
    (∃ other, (other, .connected connection) ∈ before) ∧
      ∀ other, (other, .hungUp connection) ∉ before ++ after := by
  obtain ⟨earlier, next, hsound, hstep⟩ := hrun.moment
  obtain ⟨hmade, hnone⟩ := hsound.hungUp hstep
  refine ⟨(mem_opened.mp hmade).2, fun other hagain => ?_⟩
  rcases List.mem_append.mp hagain with hbefore | hafter
  · have hended := mem_hungUp.mpr ⟨rfl, other, hbefore⟩
    rw [hnone] at hended
    cases hended
  · obtain ⟨between, earlier, next, hsound, hstep⟩ := hrun.moment_after hafter
    have hended : connection ∈ Sharing.hungUp connection.kind
        (before ++ (who, .hungUp connection) :: between) :=
      mem_hungUp.mpr ⟨rfl, who, by simp⟩
    rw [(hsound.hungUp hstep).2] at hended
    cases hended

/-- When a caller has closed the links, each connection that is ever made has been hung up. -/
theorem no_leak (hrun : Run {} (before ++ (who, .left .closed) :: after) room) :
    (∃ other, (other, .shut) ∈ before) ∧
      ∀ other connection, (other, .connected connection) ∈ before ++ (who, .left .closed) :: after →
        ∃ closer, (closer, .hungUp connection) ∈ before := by
  obtain ⟨earlier, next, hsound, hstep⟩ := hrun.moment
  obtain ⟨hclosed, hended⟩ := hsound.closed hstep
  obtain ⟨closer, hshut⟩ := hsound.shut.mp hclosed
  refine ⟨⟨closer, hshut⟩, fun other connection hmade => ?_⟩
  -- Nothing is made in slots that are shut, so that it was made before.
  have hbefore : (other, .connected connection) ∈ before := by
    rcases List.mem_append.mp hmade with hbefore | hlast
    · exact hbefore
    · have hafter : (other, .connected connection) ∈ after := by simpa using hlast
      obtain ⟨between, earlier, next, hsound, hstep⟩ := hrun.moment_after hafter
      have hopen := hsound.connected hstep
      rw [hsound.shut.mpr ⟨closer, List.mem_append_left _ hshut⟩] at hopen
      cases hopen
  have hopened := mem_opened.mpr ⟨rfl, other, hbefore⟩
  rw [hended] at hopened
  exact (mem_hungUp.mp hopened).2

/-- Each failure ends an attempt that left the slots as they were. -/
theorem failure_keeps {cause : Cause}
    (hrun : Run {} (before ++ (who, .failed kind cause) :: after) room) :
    ∃ past attempt earlier later, before = past ++ (who, .dialed kind) :: attempt ∧
      (∀ event ∈ attempt, event.1 ≠ who) ∧ Run {} past earlier ∧
      Run earlier ((who, .dialed kind) :: attempt ++ [(who, .failed kind cause)]) later ∧
      Run later after room ∧ later.slots = earlier.slots := by
  obtain ⟨failing, later, hbefore, hfailed, hafter⟩ := hrun.around
  obtain ⟨past, attempt, rfl, hothers⟩ := hbefore.exists_dialed nofun hfailed.failed.1
  obtain ⟨earlier, hpast, hattempt⟩ := hbefore.split
  have hwhole := hattempt.append (.cons hfailed (.nil later))
  exact ⟨past, attempt, earlier, later, rfl, hothers, hpast, hwhole, hafter,
    hpast.sound.failure hothers hwhole⟩

theorem failure_retried {between during : List (ι × Event κ τ)} {other : ι} {cause : Cause}
    {event : Event κ τ}
    (hrun : Run {} (before ++ ((who, .failed kind cause) :: between ++
      (other, .entered (.reach kind)) :: during ++ [(other, event)]) ++ after) room)
    (hbetween : ∀ event ∈ between, event.2 ≠ .shut ∧ event.2 ≠ .entered (.reach kind))
    (hduring : ∀ answer, (other, .left answer) ∉ during) :
    attempts (during ++ [(other, event)]) = [(other, kind)] := by
  obtain ⟨later, hfirst, -⟩ := hrun.split
  obtain ⟨earlier, hbefore, hretry⟩ := hfirst.split
  exact hbefore.sound.retry hbetween hduring hretry

/-- As long as somebody is there, somebody who is there can go on. -/
theorem goes_on (hrun : Run {} events room) (hthere : room.stage who ≠ .away) :
    ∃ mover event next, room.stage mover ≠ .away ∧ Step room (mover, event) next := by
  obtain ⟨stage, hoccupied, -⟩ := hrun.sound
  cases hoccupied with
  | free hfree _ houtside =>
      have hholds := houtside who
      cases hstage : room.stage who with
      | away => exact absurd hstage hthere
      | waiting visit => exact ⟨who, _, _, hthere, .enter hstage hfree⟩
      | _ =>
          rw [hstage] at hholds
          cases hholds
  | taken holder hlocked hstage hholds _ =>
      obtain ⟨event, slots, next, hmove⟩ := stage.exists_move hholds room.slots
      rw [← hstage] at hmove
      refine ⟨holder, event, _, fun haway => ?_, .work hmove⟩
      rw [← hstage, haway] at hholds
      cases hholds

end Run

theorem Run.safe (hrun : Run ({} : Room ι κ τ) events room) : Safe events room where
  one_attempt hwho hother := hrun.one_attempt hwho hother
  one_connection := hrun.one_connection
  no_attempt_after := by
    rintro before after who connection rfl
    exact hrun.no_attempt_after
  same_connection := hrun.same_connection
  failure_keeps := by
    rintro before after who kind cause rfl
    exact hrun.failure_keeps
  failure_retried := by
    rintro before between during after who other kind cause event rfl
    exact hrun.failure_retried
  no_attempt_once_shut := by
    rintro before after who rfl
    exact hrun.no_attempt_once_shut
  refused_once_shut := by
    rintro before after who rfl
    exact hrun.refused_once_shut
  hung_up_once := by
    rintro before after who connection rfl
    exact hrun.hung_up_once
  no_leak := by
    rintro before after who rfl
    exact hrun.no_leak
  goes_on := hrun.goes_on

/-- Whatever callers come, whatever their attempts come to, and in whatever order they move,
every run is safe. It serves each caller as links serve one user: what links do is a visit, and
every visit of a run amounts to what links do. -/
theorem run_safe (hrun : Run ({} : Room ι κ τ) events room) :
    Safe events room ∧ ∀ σ : Type, Serves ι σ :=
  ⟨hrun.safe, fun σ => serves ι σ⟩

/-- One caller fails to connect while another one waits, the other one connects, and the first one
closes the links. -/
theorem run_safe_of_two_callers : ∃ room : Room Bool Unit Unit, ∃ events,
    attempts events = [(true, .cluster), (false, .cluster)] ∧
      opened .cluster events = [.cluster ()] ∧ hungUp .cluster events = [.cluster ()] ∧
      Run {} events room ∧ Safe events room ∧ Serves Bool Unit := by
  let events : List (Bool × Event Unit Unit) :=
    [(true, .called (.reach .cluster)), (false, .called (.reach .cluster)),
      (true, .entered (.reach .cluster)), (true, .dialed .cluster), (true, .failed .cluster []),
      (true, .left (.reached .cluster (.error (.connection .clusterConnection [])))),
      (false, .entered (.reach .cluster)), (true, .called .close), (false, .dialed .cluster),
      (false, .connected (.cluster ())), (false, .left (.reached .cluster (.ok (.cluster ())))),
      (true, .entered .close), (true, .shut), (true, .hungUp (.cluster ())),
      (true, .left .closed)]
  have hrun : ∃ room, Run ({} : Room Bool Unit Unit) events room := by
    exact ⟨_,
      .cons (.call _ rfl) <| .cons (.call _ rfl) <|
      .cons (.enter rfl rfl) <| .cons (.work (.dial rfl)) <| .cons (.work (.fail _)) <|
      .cons (.work (.leave .dialed)) <|
      .cons (.enter rfl rfl) <| .cons (.call _ rfl) <| .cons (.work (.dial rfl)) <|
      .cons (.work (.connect (.cluster ()))) <| .cons (.work (.leave .dialed)) <|
      .cons (.enter rfl rfl) <| .cons (.work (.shut rfl)) <| .cons (.work .hangUp) <|
      .cons (.work (.leave .released)) <| .nil _⟩
  obtain ⟨room, hrun⟩ := hrun
  obtain ⟨hsafe, hserves⟩ := run_safe hrun
  exact ⟨room, events, rfl, rfl, rfl, hrun, hsafe, hserves Unit⟩

end ConsumerGroups.Sharing
