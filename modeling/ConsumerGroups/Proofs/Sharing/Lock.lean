import ConsumerGroups.Proofs.Sharing.Books

/-! # What the lock is for

At most one caller holds the lock, and only that caller touches the slots. So a room is as good
as the one caller in it, and the books that its moves keep right are right in every room that
can be reached.
-/

namespace ConsumerGroups.Sharing

variable {ι κ τ : Type}

/-- The stage of the caller that holds the lock of a room; away if there is none. -/
inductive Occupied (room : Room ι κ τ) (stage : Stage κ τ) : Prop
  | free (hfree : room.locked = false) (haway : stage = .away)
      (houtside : ∀ who, (room.stage who).holds = false)
  | taken (who : ι) (hlocked : room.locked = true) (hstage : room.stage who = stage)
      (hholds : stage.holds = true)
      (houtside : ∀ other, other ≠ who → (room.stage other).holds = false)

/-- The lock of a room is held at most once, and its books are right. -/
def Sound (events : List (ι × Event κ τ)) (room : Room ι κ τ) : Prop :=
  ∃ stage, Occupied room stage ∧ Books events room.slots stage

theorem Move.holds {slots nextSlots : Slots κ τ} {stage nextStage : Stage κ τ} {event : Event κ τ}
    (hmove : Move slots stage event nextSlots nextStage) : stage.holds = true := by
  cases hmove with
  | leave hdone => cases hdone <;> rfl
  | _ => rfl

/-- A move keeps the lock unless it leaves. -/
theorem Move.next {slots nextSlots : Slots κ τ} {stage nextStage : Stage κ τ} {event : Event κ τ}
    (hmove : Move slots stage event nextSlots nextStage) :
    nextStage = .away ∨ nextStage.holds = true := by
  cases hmove with
  | leave hdone => exact .inl rfl
  | _ => exact .inr rfl

/-- Whoever is at a stage that holds the lock is the one that the books are about. -/
theorem Occupied.eq_of_holds {room : Room ι κ τ} {stage : Stage κ τ}
    (hoccupied : Occupied room stage) {who : ι} (hholds : (room.stage who).holds = true) :
    room.locked = true ∧ room.stage who = stage ∧
      ∀ other, other ≠ who → (room.stage other).holds = false := by
  cases hoccupied with
  | free _ _ houtside =>
      rw [houtside who] at hholds
      cases hholds
  | taken holder hlocked hstage _ houtside =>
      obtain rfl : who = holder := by
        by_contra hne
        rw [houtside who hne] at hholds
        cases hholds
      exact ⟨hlocked, hstage, houtside⟩

/-- The books at the moment of a move. -/
theorem Sound.books {events : List (ι × Event κ τ)} {room : Room ι κ τ}
    (hsound : Sound events room) {who : ι} {event : Event κ τ} {slots : Slots κ τ}
    {stage : Stage κ τ} (hmove : Move room.slots (room.stage who) event slots stage) :
    Books events room.slots (room.stage who) := by
  obtain ⟨stage, hoccupied, hbooks⟩ := hsound
  rw [(hoccupied.eq_of_holds hmove.holds).2.1]
  exact hbooks

theorem Sound.start : Sound ([] : List (ι × Event κ τ)) {} :=
  ⟨.away, .free rfl rfl fun _ => rfl, .start⟩

variable [DecidableEq ι]

theorem holds_update_of_ne {stages : ι → Stage κ τ} {who other : ι} (hother : other ≠ who)
    (stage : Stage κ τ) :
    (Function.update stages who stage other).holds = (stages other).holds := by
  rw [Function.update_of_ne hother]

/-- Moving a caller outside leaves everybody outside who was there. -/
theorem outside_update {stages : ι → Stage κ τ} {other : ι} (hother : (stages other).holds = false)
    (who : ι) {stage : Stage κ τ} (hstage : stage.holds = false) :
    (Function.update stages who stage other).holds = false := by
  by_cases hwho : other = who
  · rw [hwho, Function.update_self]
    exact hstage
  · rw [holds_update_of_ne hwho]
    exact hother

/-- Each step of any caller keeps a room sound. -/
theorem Sound.step {events : List (ι × Event κ τ)} {room next : Room ι κ τ}
    {event : ι × Event κ τ} (hsound : Sound events room) (hstep : Step room event next) :
    Sound (events ++ [event]) next := by
  obtain ⟨stage, hoccupied, hbooks⟩ := hsound
  cases hstep with
  | @call who visit haway =>
      refine ⟨stage, ?_, hbooks.silent (by trivial) (by simp) (fun _ => rfl) hbooks.fits⟩
      cases hoccupied with
      | free hfree haway houtside =>
          exact .free hfree haway fun other => outside_update (houtside other) who rfl
      | taken holder hlocked hstage hholds houtside =>
          -- Whoever comes was away, and so is not the holder.
          have hne : holder ≠ who := by
            rintro rfl
            rw [← hstage, haway] at hholds
            cases hholds
          refine .taken holder hlocked ?_ hholds fun other hother =>
            outside_update (houtside other hother) who rfl
          exact (Function.update_of_ne hne _ _).trans hstage
  | @enter who visit hwaiting hfree =>
      cases hoccupied with
      | taken _ hlocked =>
          rw [hfree] at hlocked
          cases hlocked
      | free _ haway houtside =>
          subst haway
          refine ⟨.inside visit, ?_, hbooks.silent (by trivial) (by simp) (fun _ => rfl) trivial⟩
          refine .taken who rfl (Function.update_self ..) rfl fun other hother => ?_
          exact (holds_update_of_ne hother _).trans (houtside other)
  | @work who event slots nextStage hmove =>
      -- Whoever moves is the holder, and the books are about its stage.
      obtain ⟨-, hstage, houtside⟩ := hoccupied.eq_of_holds hmove.holds
      rw [hstage] at hmove
      refine ⟨nextStage, ?_, hbooks.move hmove who⟩
      have hothers (other : ι) (hother : other ≠ who) :
          (Function.update room.stage who nextStage other).holds = false :=
        (holds_update_of_ne hother _).trans (houtside other hother)
      -- A holder that goes away gives the lock back, and any other one keeps it.
      rcases hmove.next with rfl | hholds
      · refine .free rfl rfl fun other => ?_
        by_cases hother : other = who
        · have hself := Function.update_self who (Stage.away : Stage κ τ) room.stage
          rw [hother]
          exact congrArg Stage.holds hself
        · exact hothers other hother
      · exact .taken who hholds (Function.update_self ..) hholds hothers

/-- Every room that can be reached is sound, however its callers take turns. -/
theorem Sound.run {past events : List (ι × Event κ τ)} {room last : Room ι κ τ}
    (hsound : Sound past room) (hrun : Run room events last) : Sound (past ++ events) last := by
  induction hrun generalizing past with
  | nil room => simpa using hsound
  | @cons _ _ _ event rest hstep _ ih =>
      have hrest := ih (hsound.step hstep)
      rwa [List.append_assoc] at hrest

end ConsumerGroups.Sharing
