/-! # Virtual time

A value that arrives after a delay. Delays are never waited for: they only order the events of
a fan-out. Of several failures the one that arrives first counts, and of those that arrive
together the one asked for first.
-/

namespace ConsumerGroups

/-- A value with the time at which it arrives. -/
structure Timed (α : Type) where
  time : Nat
  value : α
deriving DecidableEq, Repr

namespace Timed

variable {ε α β : Type}

/-- Whether the value is a failure that arrives without any delay. -/
def failsAtOnce (reply : Timed (Except ε α)) : Bool :=
  match reply.value with
  | .ok _ => false
  | .error _ => reply.time = 0

/-- Both of two results, once the later has arrived, or the failure that arrives first; on a
tie that is the first one's. -/
def both (first : Timed (Except ε α)) (second : Timed (Except ε β)) :
    Timed (Except ε (α × β)) :=
  match first.value, second.value with
  | .ok a, .ok b => ⟨max first.time second.time, .ok (a, b)⟩
  | .error e, .ok _ => ⟨first.time, .error e⟩
  | .ok _, .error e => ⟨second.time, .error e⟩
  | .error e, .error e' =>
    if second.time < first.time then ⟨second.time, .error e'⟩ else ⟨first.time, .error e⟩

/-- Continues with a result at the time of its arrival. -/
def andThen (result : Timed (Except ε α)) (next : α → Except ε β) : Timed (Except ε β) :=
  ⟨result.time, result.value.bind next⟩

def mapError {ε' : Type} (f : ε → ε') (result : Timed (Except ε α)) : Timed (Except ε' α) :=
  ⟨result.time, result.value.mapError f⟩

/-- The failure that arrives first; of those that arrive together, the first in the list. -/
def earliestFailure? : List (Timed (Except ε α)) → Option (Timed ε)
  | [] => none
  | result :: rest =>
    match result.value, earliestFailure? rest with
    | .ok _, later => later
    | .error e, none => some ⟨result.time, e⟩
    | .error e, some later => if later.time < result.time then some later else some ⟨result.time, e⟩

def values : List (Timed (Except ε α)) → List α
  | [] => []
  | result :: rest =>
    match result.value with
    | .ok a => a :: values rest
    | .error _ => values rest

/-- All values, or the failure that arrives first. -/
def settle (results : List (Timed (Except ε α))) : Except ε (List α) :=
  match earliestFailure? results with
  | some failure => .error failure.value
  | none => .ok (values results)

end Timed

end ConsumerGroups
