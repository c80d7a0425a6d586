import Mathlib.Data.List.Induction
import ConsumerGroups.Proofs.Sharing.Lock

/-! # Attempts to connect

An attempt belongs to the caller that holds the lock. While it is in progress nobody else gets
near the slots, so that one that fails leaves them as they were, and the next caller that wants
the connection tries again.
-/

namespace ConsumerGroups.Sharing

variable {ι κ τ : Type}

/-- The attempts that are made, with who makes them. -/
def attempts (events : List (ι × Event κ τ)) : List (ι × Kind) :=
  events.filterMap fun event =>
    match event.2 with
    | .dialed kind => some (event.1, kind)
    | _ => none

theorem attempts_append (first second : List (ι × Event κ τ)) :
    attempts (first ++ second) = attempts first ++ attempts second :=
  List.filterMap_append

variable [DecidableEq ι]

/-! ## Beside the caller that holds the lock -/

/-- Beside a caller that holds the lock others can only come and wait. -/
theorem Sound.beside {events : List (ι × Event κ τ)} {room next : Room ι κ τ} {holder : ι}
    (hsound : Sound events room) (hholds : (room.stage holder).holds = true)
    {event : ι × Event κ τ} (hother : event.1 ≠ holder) (hstep : Step room event next) :
    attempts [event] = [] ∧ next.slots = room.slots ∧ next.stage holder = room.stage holder := by
  obtain ⟨stage, hoccupied, -⟩ := hsound
  obtain ⟨hlocked, -, houtside⟩ := hoccupied.eq_of_holds hholds
  cases hstep with
  | call visit haway => exact ⟨rfl, rfl, Function.update_of_ne hother.symm _ _⟩
  | enter hwaiting hfree =>
      rw [hlocked] at hfree
      cases hfree
  | work hmove =>
      have hinside := hmove.holds
      rw [houtside _ hother] at hinside
      cases hinside

/-- As long as only others move, the caller that holds the lock and its slots stay. -/
theorem Sound.beside_run {past events : List (ι × Event κ τ)} {room last : Room ι κ τ} {holder : ι}
    (hsound : Sound past room) (hholds : (room.stage holder).holds = true)
    (hothers : ∀ event ∈ events, event.1 ≠ holder) (hrun : Run room events last) :
    last.slots = room.slots ∧ last.stage holder = room.stage holder := by
  induction hrun generalizing past with
  | nil room => exact ⟨rfl, rfl⟩
  | @cons room next last event rest hstep hrest ih =>
      obtain ⟨-, hslots, hstage⟩ := hsound.beside hholds (hothers event List.mem_cons_self) hstep
      obtain ⟨hlastSlots, hlastStage⟩ := ih (hsound.step hstep) (by rw [hstage]; exact hholds)
        fun other hmem => hothers other (List.mem_cons_of_mem event hmem)
      exact ⟨hlastSlots.trans hslots, hlastStage.trans hstage⟩

/-- A caller that holds the lock neither comes nor waits, so that its steps are moves. -/
theorem Step.move {room next : Room ι κ τ} {who : ι} {event : Event κ τ}
    (hstep : Step room (who, event) next) (hholds : (room.stage who).holds = true) :
    Move room.slots (room.stage who) event next.slots (next.stage who) := by
  cases hstep with
  | call visit haway =>
      rw [haway] at hholds
      cases hholds
  | enter hwaiting hfree =>
      rw [hwaiting] at hholds
      cases hholds
  | work hmove =>
      dsimp only
      rw [Function.update_self]
      exact hmove

/-- The step that starts an attempt leaves the slots alone. -/
theorem Step.dialed {room next : Room ι κ τ} {who : ι} {kind : Kind}
    (hstep : Step room (who, .dialed kind) next) :
    room.stage who = .inside (.reach kind) ∧ next.slots = room.slots ∧
      next.stage who = .dialing kind := by
  cases hstep with
  | work hmove =>
      generalize hstage : room.stage who = stage at hmove ⊢
      cases hmove with
      | dial hempty => exact ⟨rfl, rfl, Function.update_self ..⟩

/-- Whoever is in an attempt has just started it, or was in it before and let another one move. -/
theorem Step.dialing {room next : Room ι κ τ} {event : ι × Event κ τ} {who : ι} {kind : Kind}
    (hstep : Step room event next) (hdialing : next.stage who = .dialing kind) :
    event = (who, .dialed kind) ∨ event.1 ≠ who ∧ room.stage who = .dialing kind := by
  have hupdate {mover : ι} {stage : Stage κ τ}
      (hnext : Function.update room.stage mover stage who = .dialing kind) :
      mover = who ∧ stage = .dialing kind ∨ mover ≠ who ∧ room.stage who = .dialing kind := by
    by_cases hmover : mover = who
    · rw [hmover, Function.update_self] at hnext
      exact .inl ⟨hmover, hnext⟩
    · rw [Function.update_of_ne (Ne.symm hmover)] at hnext
      exact .inr ⟨hmover, hnext⟩
  cases hstep with
  | call visit haway =>
      rcases hupdate hdialing with ⟨-, hself⟩ | hother
      · cases hself
      · exact .inr hother
  | enter hwaiting hfree =>
      rcases hupdate hdialing with ⟨-, hself⟩ | hother
      · cases hself
      · exact .inr hother
  | @work mover event slots stage hmove =>
      rcases hupdate hdialing with ⟨rfl, rfl⟩ | hother
      · generalize room.stage mover = before at hmove
        cases hmove with
        | dial hempty => exact .inl rfl
      · exact .inr hother

/-- Whoever is in an attempt has not moved since it started it. -/
theorem Run.exists_dialed {start room : Room ι κ τ} {events : List (ι × Event κ τ)} {who : ι}
    {kind : Kind} (hrun : Run start events room) (hstart : start.stage who ≠ .dialing kind)
    (hdialing : room.stage who = .dialing kind) :
    ∃ before attempt, events = before ++ (who, .dialed kind) :: attempt ∧
      ∀ event ∈ attempt, event.1 ≠ who := by
  -- The induction is from the end of the run: it is the last attempt that is meant.
  induction events using List.reverseRecOn generalizing room with
  | nil =>
      cases hrun with
      | nil => exact absurd hdialing hstart
  | append_singleton rest event ih =>
      obtain ⟨earlier, hrest, hlast⟩ := hrun.split
      cases hlast with
      | cons hstep hnil =>
          cases hnil
          rcases hstep.dialing hdialing with rfl | ⟨hother, hbefore⟩
          · exact ⟨rest, [], rfl, nofun⟩
          · obtain ⟨before, attempt, rfl, hattempt⟩ := ih hrest hbefore
            refine ⟨before, attempt ++ [event], by simp, fun other hmem => ?_⟩
            rcases List.mem_append.mp hmem with hearlier | hevent
            · exact hattempt other hearlier
            · rw [List.mem_singleton.mp hevent]
              exact hother

/-- The step that ends an attempt without a connection leaves the slots alone. -/
theorem Step.failed {room next : Room ι κ τ} {who : ι} {kind : Kind} {cause : Cause}
    (hstep : Step room (who, .failed kind cause) next) :
    room.stage who = .dialing kind ∧ next.slots = room.slots ∧
      next.stage who = .leaving kind (.error (.connection kind.context cause)) ∧
      ∀ other, other ≠ who → next.stage other = room.stage other := by
  cases hstep with
  | work hmove =>
      generalize hstage : room.stage who = stage at hmove ⊢
      cases hmove with
      | fail cause =>
          exact ⟨rfl, rfl, Function.update_self .., fun other hother =>
            Function.update_of_ne hother _ _⟩

/-- An attempt that fails leaves the slots as they were before it. -/
theorem Sound.failure {past attempt : List (ι × Event κ τ)} {earlier later : Room ι κ τ} {who : ι}
    {kind : Kind} {cause : Cause} (hsound : Sound past earlier)
    (hothers : ∀ event ∈ attempt, event.1 ≠ who)
    (hrun : Run earlier ((who, .dialed kind) :: attempt ++ [(who, .failed kind cause)]) later) :
    later.slots = earlier.slots := by
  cases hrun with
  | @cons _ dialing _ _ _ hdialed hrest =>
      obtain ⟨failing, hattempt, hend⟩ := hrest.split
      cases hend with
      | cons hfailed hnil =>
          cases hnil
          obtain ⟨-, hstarted, hstage⟩ := hdialed.dialed
          have hholds : (dialing.stage who).holds = true := by
            rw [hstage]
            rfl
          have hbeside := (hsound.step hdialed).beside_run hholds hothers hattempt
          exact hfailed.failed.2.1.trans (hbeside.1.trans hstarted)

/-! ## After a failure -/

/-- A sort whose slot is open and empty, and which nobody under the lock wants. -/
structure Vacant (kind : Kind) (room : Room ι κ τ) : Prop where
  isOpen : room.slots.closed = false
  isEmpty : held room.slots kind = none
  unwanted : ∀ who, room.stage who ≠ .inside (.reach kind) ∧ room.stage who ≠ .dialing kind

/-- After a failed attempt its sort is vacant. -/
theorem Sound.vacant {events : List (ι × Event κ τ)} {room next : Room ι κ τ} {who : ι} {kind : Kind}
    {cause : Cause} (hsound : Sound events room)
    (hstep : Step room (who, .failed kind cause) next) : Vacant kind next := by
  obtain ⟨hstage, hslots, hleaving, hothers⟩ := hstep.failed
  obtain ⟨stage, hoccupied, hbooks⟩ := hsound
  have hholds : (room.stage who).holds = true := by
    rw [hstage]
    rfl
  obtain ⟨-, hsame, houtside⟩ := hoccupied.eq_of_holds hholds
  have hfits := hbooks.fits
  rw [← hsame, hstage] at hfits
  rw [← hslots] at hfits
  refine ⟨hfits.1, hfits.2, fun other => ?_⟩
  by_cases hother : other = who
  · rw [hother, hleaving]
    exact ⟨nofun, nofun⟩
  · have hbeside := houtside other hother
    rw [hothers other hother]
    refine ⟨fun hinside => ?_, fun hdialing => ?_⟩
    · rw [hinside] at hbeside
      cases hbeside
    · rw [hdialing] at hbeside
      cases hbeside

/-- A sort stays vacant until somebody wants it or the slots are shut. -/
theorem Vacant.step {kind : Kind} {room next : Room ι κ τ} {event : ι × Event κ τ}
    (hvacant : Vacant kind room) (hshut : event.2 ≠ .shut)
    (hentered : event.2 ≠ .entered (.reach kind)) (hstep : Step room event next) :
    Vacant kind next := by
  have hupdate {who : ι} {stage : Stage κ τ} (hinside : stage ≠ .inside (.reach kind))
      (hdialing : stage ≠ .dialing kind) (other : ι) :
      Function.update room.stage who stage other ≠ .inside (.reach kind) ∧
        Function.update room.stage who stage other ≠ .dialing kind := by
    by_cases hother : other = who
    · rw [hother, Function.update_self]
      exact ⟨hinside, hdialing⟩
    · rw [Function.update_of_ne hother]
      exact hvacant.unwanted other
  cases hstep with
  | call visit haway => exact ⟨hvacant.isOpen, hvacant.isEmpty, hupdate nofun nofun⟩
  | @enter who visit hwaiting hfree =>
      refine ⟨hvacant.isOpen, hvacant.isEmpty, hupdate ?_ nofun⟩
      rintro ⟨⟩
      exact hentered rfl
  | @work who event slots stage hmove =>
      have hunwanted := hvacant.unwanted who
      generalize room.stage who = before at hmove hunwanted
      cases hmove with
      | @dial wanted hempty =>
          refine ⟨hvacant.isOpen, hvacant.isEmpty, hupdate nofun ?_⟩
          rintro ⟨⟩
          exact hunwanted.1 rfl
      | connect connection =>
          have hkind : connection.kind ≠ kind := by
            rintro rfl
            exact hunwanted.2 rfl
          refine ⟨?_, ?_, hupdate nofun nofun⟩
          · exact (closed_fill room.slots connection).trans hvacant.isOpen
          · exact (held_fill room.slots connection kind).trans
              ((if_neg hkind).trans hvacant.isEmpty)
      | fail cause => exact ⟨hvacant.isOpen, hvacant.isEmpty, hupdate nofun nofun⟩
      | shut hopen => exact absurd rfl hshut
      | hangUp => exact ⟨hvacant.isOpen, hvacant.isEmpty, hupdate nofun nofun⟩
      | leave hdone => exact ⟨hvacant.isOpen, hvacant.isEmpty, hupdate nofun nofun⟩

theorem Vacant.run {kind : Kind} {room last : Room ι κ τ} {events : List (ι × Event κ τ)}
    (hvacant : Vacant kind room)
    (hothers : ∀ event ∈ events, event.2 ≠ .shut ∧ event.2 ≠ .entered (.reach kind))
    (hrun : Run room events last) : Vacant kind last := by
  induction hrun with
  | nil room => exact hvacant
  | @cons room next last event rest hstep hrest ih =>
      obtain ⟨hshut, hentered⟩ := hothers event List.mem_cons_self
      exact ih (hvacant.step hshut hentered hstep) fun other hother =>
        hothers other (List.mem_cons_of_mem event hother)

/-! ## The next attempt -/

/-- How far a caller has got that found its sort vacant: before its only attempt, in it, or after
it. -/
inductive Trying (who : ι) (kind : Kind) (slots : Slots κ τ) : Stage κ τ → List (ι × Kind) → Prop
  | before (hopen : slots.closed = false) (hempty : held slots kind = none) :
      Trying who kind slots (.inside (.reach kind)) []
  | during : Trying who kind slots (.dialing kind) [(who, kind)]
  | after {result : Except Failure (Connection κ τ)} :
      Trying who kind slots (.leaving kind result) [(who, kind)]

section

omit [DecidableEq ι]

variable {who : ι} {kind : Kind} {slots : Slots κ τ} {stage : Stage κ τ} {made : List (ι × Kind)}

theorem Trying.holds (htrying : Trying who kind slots stage made) : stage.holds = true := by
  cases htrying <;> rfl

/-- A caller that tries makes its attempt by its first move, and leaves only after it. -/
theorem Trying.move (htrying : Trying who kind slots stage made) {event : Event κ τ}
    {nextSlots : Slots κ τ} {nextStage : Stage κ τ} (hstays : ∀ answer, event ≠ .left answer)
    (hmove : Move slots stage event nextSlots nextStage) :
    Trying who kind nextSlots nextStage (made ++ attempts [(who, event)]) := by
  cases htrying with
  | before hopen hempty =>
      cases hmove with
      | dial => exact .during
      | leave => exact absurd rfl (hstays _)
  | during =>
      cases hmove with
      | connect connection => exact .after
      | fail cause => exact .after
      | leave => exact absurd rfl (hstays _)
  | after =>
      cases hmove with
      | leave => exact absurd rfl (hstays _)

/-- By its first move, and by every later one, a caller that tries has made one attempt. -/
theorem Trying.attempted (htrying : Trying who kind slots stage made) {event : Event κ τ}
    {nextSlots : Slots κ τ} {nextStage : Stage κ τ}
    (hmove : Move slots stage event nextSlots nextStage) :
    made ++ attempts [(who, event)] = [(who, kind)] := by
  cases htrying with
  | before hopen hempty =>
      cases hmove with
      | dial => rfl
      | leave hdone =>
          cases hdone with
          | refused haccess =>
              rw [Slots.access_eq_closed, hopen] at haccess
              cases haccess
          | found haccess =>
              rw [Slots.access_eq_connected, hempty] at haccess
              cases haccess.2
  | during => cases hmove <;> rfl
  | after =>
      cases hmove with
      | leave => rfl

end

/-- Whoever moves, a caller that tries makes no more than its one attempt, and nobody else makes
any. -/
theorem Trying.step {events : List (ι × Event κ τ)} {who : ι} {kind : Kind} {room next : Room ι κ τ}
    {made : List (ι × Kind)} (hsound : Sound events room)
    (htrying : Trying who kind room.slots (room.stage who) made) {event : ι × Event κ τ}
    (hstays : ∀ answer, event ≠ (who, .left answer)) (hstep : Step room event next) :
    Trying who kind next.slots (next.stage who) (made ++ attempts [event]) := by
  by_cases hother : event.1 = who
  · -- The caller itself gets ahead by a move.
    obtain ⟨_, event⟩ := event
    obtain rfl := hother
    refine htrying.move (fun answer hleft => ?_) (hstep.move htrying.holds)
    exact hstays answer (congrArg _ hleft)
  · -- The others cannot touch what it has found.
    obtain ⟨hnone, hslots, hstage⟩ := hsound.beside htrying.holds hother hstep
    rw [hnone, List.append_nil, hslots, hstage]
    exact htrying

theorem Trying.run {past events : List (ι × Event κ τ)} {who : ι} {kind : Kind}
    {room last : Room ι κ τ} {made : List (ι × Kind)} (hsound : Sound past room)
    (htrying : Trying who kind room.slots (room.stage who) made)
    (hstays : ∀ answer, (who, .left answer) ∉ events) (hrun : Run room events last) :
    Trying who kind last.slots (last.stage who) (made ++ attempts events) := by
  induction hrun generalizing past made with
  | nil room =>
      rw [show attempts ([] : List (ι × Event κ τ)) = [] from rfl, List.append_nil]
      exact htrying
  | @cons room next last event rest hstep hrest ih =>
      have hother (answer : Answer κ τ) : event ≠ (who, .left answer) := by
        rintro rfl
        exact hstays answer List.mem_cons_self
      have hnext := htrying.step hsound hother hstep
      have hlast := ih (hsound.step hstep) hnext fun answer hmem =>
        hstays answer (List.mem_cons_of_mem event hmem)
      rwa [List.append_assoc, ← attempts_append] at hlast

/-- A caller that enters for a vacant sort has its attempt before it. -/
theorem Vacant.enter {room next : Room ι κ τ} {who : ι} {kind : Kind} (hvacant : Vacant kind room)
    (hstep : Step room (who, .entered (.reach kind)) next) :
    Trying who kind next.slots (next.stage who) [] := by
  cases hstep with
  | enter hwaiting hfree =>
      dsimp only
      rw [Function.update_self]
      exact .before hvacant.isOpen hvacant.isEmpty
  | work hmove =>
      generalize room.stage who = stage at hmove
      cases hmove

/-- The first caller after a failed attempt that wants the connection makes one attempt as the
first thing it does, and no other one until it has left, unless the links are shut before. -/
theorem Sound.retry {past between during : List (ι × Event κ τ)} {room last : Room ι κ τ}
    {who other : ι} {kind : Kind} {cause : Cause} {event : Event κ τ} (hsound : Sound past room)
    (hbetween : ∀ event ∈ between, event.2 ≠ .shut ∧ event.2 ≠ .entered (.reach kind))
    (hduring : ∀ answer, (other, .left answer) ∉ during)
    (hrun : Run room ((who, .failed kind cause) :: between ++
      (other, .entered (.reach kind)) :: during ++ [(other, event)]) last) :
    attempts (during ++ [(other, event)]) = [(other, kind)] := by
  rw [List.append_assoc, List.cons_append] at hrun
  cases hrun with
  | @cons _ failed _ _ _ hfailed hrest =>
      have hsoundFailed := hsound.step hfailed
      obtain ⟨free, inside, hfree, hentered, hinside⟩ := hrest.around
      have hvacant := (hsound.vacant hfailed).run hbetween hfree
      have hsoundFree := hsoundFailed.run hfree
      obtain ⟨busy, hduringRun, hevent⟩ := hinside.split
      have hbusy := (hvacant.enter hentered).run (hsoundFree.step hentered) hduring hduringRun
      rw [List.nil_append] at hbusy
      cases hevent with
      | cons hstep hnil =>
          rw [attempts_append]
          exact hbusy.attempted (hstep.move hbusy.holds)

end ConsumerGroups.Sharing
