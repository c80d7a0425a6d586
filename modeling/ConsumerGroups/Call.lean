import ConsumerGroups.Console

/-! # Calls

The operations of the library as values. A console call goes through the links of a console;
a direct call is made on a cluster or a registry that is already there.
-/

namespace ConsumerGroups

inductive ConsoleCall
  | progress (group topic : String)
  | commit (group topic : String) (batch : List Progress)
  | owners (group topic : String)
  | ownersByGroup (topic : String)
  | close
deriving DecidableEq, Repr

/-- A call on a cluster or a registry. -/
inductive DirectCall
  | survey (topic : String)
  | fetchMarks (group topic : String) (partitions : List Int32)
  | commit (group topic : String) (batch : List Progress)
  | scan (chroot group topic : String)
  | scanGroups (chroot topic : String)
deriving DecidableEq, Repr

/-- A call of either sort. -/
inductive Call
  | console (call : ConsoleCall)
  | direct (call : DirectCall)
deriving DecidableEq, Repr

inductive CallAnswer
  | progress (result : Except Failure (List Progress))
  | marks (result : Except Failure (List Mark))
  | committed (result : Except Failure Unit)
  | owners (result : Except Failure Ownership)
  | ownersByGroup (result : Except Failure GroupOwnership)
  | closed

variable {σ : Type}

def ConsoleCall.run : ConsoleCall → StateT (Links σ) (StateM σ) CallAnswer
  | progress group topic => return .progress (← (Console.progress group topic).run)
  | commit group topic batch => return .committed (← (Console.commit group topic batch).run)
  | owners group topic => return .owners (← (Console.owners group topic).run)
  | ownersByGroup topic => return .ownersByGroup (← (Console.ownersByGroup topic).run)
  | close => do
    Console.close
    return .closed

def DirectCall.run (cluster : Cluster σ) (registry : Registry σ) :
    DirectCall → StateM σ CallAnswer
  | survey topic => return .progress (← (Range.survey cluster topic).run)
  | fetchMarks group topic partitions =>
    return .marks (← (Commitment.fetch cluster group topic partitions).run)
  | commit group topic batch =>
    return .committed (← (Commitment.commit cluster group topic batch).run)
  | scan chroot group topic => return .owners (← (Ownership.scan registry chroot group topic).run)
  | scanGroups chroot topic =>
    return .ownersByGroup (← (Ownership.scanGroups registry chroot topic).run)

def Call.run (cluster : Cluster σ) (registry : Registry σ) :
    Call → StateT (Links σ) (StateM σ) CallAnswer
  | console call => call.run
  | direct call => StateT.lift (call.run cluster registry)

end ConsumerGroups
