import Mathlib.Data.List.Basic
import ConsumerGroups.Proofs.Results
import ConsumerGroups.Timed

/-! # Success does not depend on time

Delays decide which of several failures counts. Whether anything fails at all, and what the
values of the successes are, they do not touch.
-/

namespace ConsumerGroups.Timed

variable {ε ε' α β : Type}

theorem earliestFailure?_cons_ok {result : Timed (Except ε α)} {value : α}
    (hvalue : result.value = .ok value) (rest : List (Timed (Except ε α))) :
    earliestFailure? (result :: rest) = earliestFailure? rest := by
  simp [earliestFailure?, hvalue]

theorem earliestFailure?_cons_error {result : Timed (Except ε α)} {failure : ε}
    (hvalue : result.value = .error failure) (rest : List (Timed (Except ε α))) :
    earliestFailure? (result :: rest) ≠ none := by
  cases hrest : earliestFailure? rest with
  | none => simp [earliestFailure?, hvalue, hrest]
  | some later =>
      simp only [earliestFailure?, hvalue, hrest]
      split <;> simp

theorem values_cons_ok {result : Timed (Except ε α)} {value : α}
    (hvalue : result.value = .ok value) (rest : List (Timed (Except ε α))) :
    values (result :: rest) = value :: values rest := by
  simp [values, hvalue]

/-- Several results settle exactly if every one is a success, whenever each arrives. -/
theorem settle_eq_ok {results : List (Timed (Except ε α))} {successes : List α} :
    settle results = .ok successes ↔ results.map (·.value) = successes.map .ok := by
  induction results generalizing successes with
  | nil => cases successes <;> simp [settle, earliestFailure?, values]
  | cons result rest ih =>
      cases hvalue : result.value with
      | error failure =>
          have hfails : settle (result :: rest) ≠ .ok successes := by
            obtain ⟨first, hfirst⟩ :=
              Option.ne_none_iff_exists'.mp (earliestFailure?_cons_error hvalue rest)
            simp [settle, hfirst]
          refine iff_of_false hfails ?_
          cases successes <;> simp [hvalue]
      | ok value =>
          have hsettle : settle (result :: rest) = (settle rest).map (value :: ·) := by
            unfold settle
            rw [earliestFailure?_cons_ok hvalue, values_cons_ok hvalue]
            cases earliestFailure? rest <;> rfl
          rw [hsettle]
          cases successes with
          | nil => cases settle rest <;> simp [Except.map]
          | cons success others =>
              rw [List.map_cons, List.map_cons, List.cons.injEq, hvalue, ← ih]
              cases settle rest <;> simp [Except.map]

theorem earliestFailure?_ne_none {results : List (Timed (Except ε α))} {result : Timed (Except ε α)}
    (hresult : result ∈ results) {failure : ε} (hvalue : result.value = .error failure) :
    earliestFailure? results ≠ none := by
  induction results with
  | nil => cases hresult
  | cons first rest ih =>
      cases hfirst : first.value with
      | error other => exact earliestFailure?_cons_error hfirst rest
      | ok value =>
          rw [earliestFailure?_cons_ok hfirst]
          rcases List.mem_cons.mp hresult with rfl | hrest
          · rw [hvalue] at hfirst
            cases hfirst
          · exact ih hrest

/-- The result at a place has failed, and no other failure comes before it: one that arrives
earlier, or at the same time from an earlier place. -/
structure FailsFirst (results : List (Timed (Except ε α))) (place : Nat) (earliest : Timed ε) :
    Prop where
  failed : results[place]? = some ⟨earliest.time, .error earliest.value⟩
  first : ∀ other time failure, results[other]? = some ⟨time, .error failure⟩ →
    earliest.time < time ∨ (earliest.time = time ∧ place ≤ other)

/-- Only one failure is the first. -/
theorem FailsFirst.unique {results : List (Timed (Except ε α))} {place place' : Nat}
    {earliest earliest' : Timed ε} (hfirst : FailsFirst results place earliest)
    (hother : FailsFirst results place' earliest') : place = place' ∧ earliest = earliest' := by
  have hbefore := hfirst.first _ _ _ hother.failed
  have hafter := hother.first _ _ _ hfirst.failed
  obtain rfl : place = place' := by omega
  have hsame := hfirst.failed.symm.trans hother.failed
  simp only [Option.some.injEq, Timed.mk.injEq, Except.error.injEq] at hsame
  cases earliest
  cases earliest'
  simp_all

theorem FailsFirst.cons_ok {result : Timed (Except ε α)} {rest : List (Timed (Except ε α))}
    {place : Nat} {earliest : Timed ε} {value : α} (hvalue : result.value = .ok value)
    (hfirst : FailsFirst rest place earliest) :
    FailsFirst (result :: rest) (place + 1) earliest where
  failed := hfirst.failed
  first other time failure hother := by
    cases other with
    | zero =>
        obtain rfl := Option.some.inj hother
        cases hvalue
    | succ other =>
        have := hfirst.first other time failure hother
        omega

theorem exists_failsFirst {results : List (Timed (Except ε α))} {earliest : Timed ε}
    (hearliest : earliestFailure? results = some earliest) :
    ∃ place, FailsFirst results place earliest := by
  induction results generalizing earliest with
  | nil => cases hearliest
  | cons result rest ih =>
      rcases result with ⟨time, failure | value⟩
      · cases hrest : earliestFailure? rest with
        | none =>
            -- No later result is a failure, so that this one is the first.
            obtain rfl : ⟨time, failure⟩ = earliest := by
              simpa [earliestFailure?, hrest] using hearliest
            refine ⟨0, rfl, fun other later cause hother => ?_⟩
            cases other with
            | zero =>
                cases hother
                exact .inr ⟨rfl, Nat.le_refl _⟩
            | succ other =>
                exact absurd hrest (earliestFailure?_ne_none (List.mem_of_getElem? hother) rfl)
        | some next =>
            obtain ⟨place, hfirst⟩ := ih hrest
            simp only [earliestFailure?, hrest] at hearliest
            split at hearliest <;> obtain rfl := Option.some.inj hearliest
            · refine ⟨place + 1, hfirst.failed, fun other later cause hother => ?_⟩
              cases other with
              | zero =>
                  cases hother
                  exact .inl ‹_›
              | succ other =>
                  have := hfirst.first other later cause hother
                  omega
            · refine ⟨0, rfl, fun other later cause hother => ?_⟩
              cases other with
              | zero =>
                  cases hother
                  exact .inr ⟨rfl, Nat.le_refl _⟩
              | succ other =>
                  have := hfirst.first other later cause hother
                  dsimp only
                  omega
      · rw [earliestFailure?_cons_ok rfl] at hearliest
        obtain ⟨place, hfirst⟩ := ih hearliest
        exact ⟨place + 1, hfirst.cons_ok rfl⟩

theorem earliestFailure?_eq_some_iff {results : List (Timed (Except ε α))} {earliest : Timed ε} :
    earliestFailure? results = some earliest ↔ ∃ place, FailsFirst results place earliest := by
  refine ⟨exists_failsFirst, fun ⟨place, hfirst⟩ => ?_⟩
  have hfails := earliestFailure?_ne_none (List.mem_of_getElem? hfirst.failed) rfl
  obtain ⟨found, hfound⟩ := Option.ne_none_iff_exists'.mp hfails
  obtain ⟨_, hother⟩ := exists_failsFirst hfound
  rw [hfound, (hother.unique hfirst).2]

/-- Several results do not settle exactly if one of them fails first, and they fail as it does. -/
theorem settle_eq_error_iff {results : List (Timed (Except ε α))} {failure : ε} :
    settle results = .error failure ↔ ∃ place time, FailsFirst results place ⟨time, failure⟩ := by
  unfold settle
  constructor
  · intro hsettle
    split at hsettle <;> cases hsettle
    obtain ⟨place, hfirst⟩ := exists_failsFirst ‹_›
    exact ⟨place, _, hfirst⟩
  · rintro ⟨place, time, hfirst⟩
    rw [earliestFailure?_eq_some_iff.mpr ⟨place, hfirst⟩]

/-- Several results that do not settle fail as the one of them that fails first. -/
theorem settle_eq_error {results : List (Timed (Except ε α))} {failure : ε}
    (hfailure : settle results = .error failure) :
    ∃ first ∈ results, first.value = .error failure ∧
      ∀ other ∈ results, ∀ later, other.value = .error later → first.time ≤ other.time := by
  obtain ⟨place, time, hfirst⟩ := settle_eq_error_iff.mp hfailure
  refine ⟨_, List.mem_of_getElem? hfirst.failed, rfl, ?_⟩
  rintro ⟨time', _⟩ hother later rfl
  obtain ⟨other, hplace⟩ := List.mem_iff_getElem?.mp hother
  have := hfirst.first other time' later hplace
  dsimp only at this ⊢
  omega

/-- Both of two results succeed exactly if each does. -/
theorem both_eq_ok {first : Timed (Except ε α)} {second : Timed (Except ε β)} {a : α} {b : β} :
    (first.both second).value = .ok (a, b) ↔ first.value = .ok a ∧ second.value = .ok b := by
  unfold both
  cases hfirst : first.value <;> cases hsecond : second.value <;> simp
  split <;> simp

/-- Both of two results are there once the later is. -/
theorem time_le_both {first : Timed (Except ε α)} {second : Timed (Except ε β)} {values : α × β}
    (hboth : (first.both second).value = .ok values) :
    first.time ≤ (first.both second).time ∧ second.time ≤ (first.both second).time := by
  obtain ⟨hfirst, hsecond⟩ := both_eq_ok.mp (Prod.eta values ▸ hboth)
  simp only [both, hfirst, hsecond]
  exact ⟨Nat.le_max_left _ _, Nat.le_max_right _ _⟩

/-- What becomes of two results is known when one of them arrives. -/
theorem time_both (first : Timed (Except ε α)) (second : Timed (Except ε β)) :
    (first.both second).time = first.time ∨ (first.both second).time = second.time := by
  unfold both
  cases first.value <;> cases second.value <;> dsimp only
  · split
    · exact .inr rfl
    · exact .inl rfl
  · exact .inl rfl
  · exact .inr rfl
  · omega

/-- Two results fail as one of them does, when that one arrives. -/
theorem both_eq_error {first : Timed (Except ε α)} {second : Timed (Except ε β)} {failure : ε}
    (hboth : (first.both second).value = .error failure) :
    (first.value = .error failure ∧ first.time = (first.both second).time) ∨
      (second.value = .error failure ∧ second.time = (first.both second).time) := by
  unfold both at hboth ⊢
  cases hfirst : first.value <;> cases hsecond : second.value <;>
    simp only [hfirst, hsecond] at hboth ⊢ <;> grind

/-- If one of two results fails, what becomes of them is known as soon as that one arrives. -/
theorem time_both_le_of_error {first : Timed (Except ε α)} {second : Timed (Except ε β)}
    {failure : ε} {time : Nat} (hfails : (first.value = .error failure ∧ first.time = time) ∨
      (second.value = .error failure ∧ second.time = time)) : (first.both second).time ≤ time := by
  unfold both
  cases hfirst : first.value <;> cases hsecond : second.value <;> grind

theorem andThen_eq_error {result : Timed (Except ε α)} {next : α → Except ε β} {failure : ε} :
    (result.andThen next).value = .error failure ↔
      result.value = .error failure ∨ ∃ a, result.value = .ok a ∧ next a = .error failure :=
  Results.bind_eq_error

/-- Two results that are made something of fail in one of three ways: as the first, if that one
does not arrive later than a failure of the second; as the second, if that one arrives before a
failure of the first; or, once both are there, because nothing can be made of them. -/
theorem both_andThen_eq_error {first : Timed (Except ε α)} {second : Timed (Except ε β)} {γ : Type}
    {next : α × β → Except ε γ} {time : Nat} {failure : ε} :
    (first.both second).andThen next = ⟨time, .error failure⟩ ↔
      (first = ⟨time, .error failure⟩ ∧ ∀ other later, second = ⟨other, .error later⟩ →
          time ≤ other) ∨
        (second = ⟨time, .error failure⟩ ∧ ∀ other later, first = ⟨other, .error later⟩ →
          time < other) ∨
        ∃ sooner later a b, first = ⟨sooner, .ok a⟩ ∧ second = ⟨later, .ok b⟩ ∧
          max sooner later = time ∧ next (a, b) = .error failure := by
  rcases first with ⟨early, _ | _⟩ <;> rcases second with ⟨late, _ | _⟩ <;>
    simp only [both, andThen] <;> grind [Except.bind]

theorem mapError_eq_error {f : ε → ε'} {reply : Timed (Except ε α)} {failure : ε'} :
    (reply.mapError f).value = .error failure ↔ ∃ cause, reply.value = .error cause ∧
      f cause = failure := by
  cases hvalue : reply.value <;> simp [mapError, hvalue, Except.mapError]

theorem mapError_eq_failure {f : ε → ε'} {reply : Timed (Except ε α)} {time : Nat} {failure : ε'} :
    reply.mapError f = ⟨time, .error failure⟩ ↔
      ∃ cause, reply = ⟨time, .error cause⟩ ∧ f cause = failure := by
  rcases reply with ⟨arrival, _ | _⟩ <;> simp [mapError, Except.mapError, and_assoc]

theorem mapError_eq_success {f : ε → ε'} {reply : Timed (Except ε α)} {time : Nat} {a : α} :
    reply.mapError f = ⟨time, .ok a⟩ ↔ reply = ⟨time, .ok a⟩ := by
  rcases reply with ⟨arrival, _ | _⟩ <;> simp [mapError, Except.mapError]

theorem andThen_eq_ok {result : Timed (Except ε α)} {next : α → Except ε β} {b : β} :
    (result.andThen next).value = .ok b ↔ ∃ a, result.value = .ok a ∧ next a = .ok b :=
  Results.bind_eq_ok

theorem mapError_eq_ok {f : ε → ε'} {reply : Timed (Except ε α)} {a : α} :
    (reply.mapError f).value = .ok a ↔ reply.value = .ok a :=
  Results.mapError_eq_ok

@[simp] theorem failsAtOnce_mapError (f : ε → ε') (reply : Timed (Except ε α)) :
    (reply.mapError f).failsAtOnce = reply.failsAtOnce := by
  cases hvalue : reply.value <;> simp [failsAtOnce, mapError, hvalue, Except.mapError]

end ConsumerGroups.Timed
