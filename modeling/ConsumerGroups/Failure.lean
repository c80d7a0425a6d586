import ConsumerGroups.ErrorCode
import ConsumerGroups.PartitionLog

/-! # Failures

A failure is a reason, with the layers of context that say what was being attempted. Each
caller may add a layer around a failure; the reason stays, so that callers can branch on it
however deep the failure arose. The wording of every layer is fixed in this module.
-/

namespace ConsumerGroups

/-- The messages of a transport failure, from the outermost to the root. -/
abbrev Cause := List String

def Cause.text (cause : Cause) : String :=
  ": ".intercalate cause

/-- What was attempted, or what was found wrong, at one layer of a failure. -/
inductive Context
  | topicPartitions
  | partitionLeader (partition : Int32)
  | boundaryOffset (boundary : Boundary) (broker : Int32)
  | blockAbsent (topic : String) (partition : Int32)
  | blockRefused (topic : String) (partition : Int32)
  | offsetAbsent (topic : String) (partition : Int32)
  | groupCoordinator
  | committedMarks
  | committedMarksOf (group : String)
  | markAbsent (partition : Int32)
  | markRefused (partition : Int32)
  | commitRequest
  | commitRefused (partition : Int32)
  | commitUnanswered (topic : String)
  | subscriptionAbsent
  | ownersListing
  | ownerNodeName (name : String)
  | ownerNode (partition : Int32)
  | groupsListing
  | groupData (group : String)
  | nodeAbsent
  | clusterConnection
  | registryConnection
  | note (text : String)
deriving DecidableEq, Repr

def Context.text : Context → String
  | topicPartitions => "failed to get topic partitions"
  | partitionLeader p => s!"failed to get partition leader, partition={p}"
  | boundaryOffset b broker => s!"failed to fetch {b.word} offset, broker={broker}"
  | blockAbsent topic p => s!"{topic}/{p}, no data"
  | blockRefused topic p => s!"{topic}/{p}, fetch error"
  | offsetAbsent topic p => s!"{topic}/{p}, no offset"
  | groupCoordinator => "failed to get coordinator"
  | committedMarks => "failed to fetch offsets"
  | committedMarksOf group => s!"failed to fetch offsets, group={group}"
  | markAbsent p => s!"offset block is missing, partition={p}"
  | markRefused p => s!"failed to fetch offset, partition={p}"
  | commitRequest => "failed to commit offsets"
  | commitRefused p => s!"failed to commit offset, partition={p}"
  | commitUnanswered topic => s!"commit response has no results, topic={topic}"
  | subscriptionAbsent => "either group or topic is incorrect"
  | ownersListing => "failed to fetch partition owners data"
  | ownerNodeName name => s!"invalid partition id, {name}"
  | ownerNode p => s!"failed to fetch partition owner, partition={p}"
  | groupsListing => "failed to fetch consumer groups"
  | groupData group => s!"failed to fetch group `{group}` data"
  | nodeAbsent => "node does not exist"
  | clusterConnection => "failed to create cluster client"
  | registryConnection => "failed to create tree store connection"
  | note text => text

/-- Why an operation failed: a transport or connection broke, a response lacked something or
had the wrong shape, the cluster refused an item with a code, or the queried subscription does
not exist. -/
inductive Reason
  | connection (cause : Cause)
  | protocol
  | remote (code : Int16)
  | notFound
deriving DecidableEq, Repr

/-- What a reason adds to the message after the layers of context. -/
def Reason.details : Reason → List String
  | connection cause => cause
  | protocol => []
  | remote code => [ErrorCode.text code]
  | notFound => []

/-- A reason with the context in which it arose and the layers that callers added around it,
the outermost first. -/
structure Failure where
  outer : List Context := []
  context : Context
  reason : Reason
deriving DecidableEq, Repr

namespace Failure

def connection (context : Context) (cause : Cause) : Failure :=
  { context, reason := .connection cause }

def protocol (context : Context) : Failure :=
  { context, reason := .protocol }

def remote (context : Context) (code : Int16) : Failure :=
  { context, reason := .remote code }

def notFound (context : Context) : Failure :=
  { context, reason := .notFound }

/-- The kinds of failures, which callers branch on. -/
inductive Kind
  | connection
  | protocol
  | remote
  | notFound
deriving DecidableEq, Repr

def kind (failure : Failure) : Kind :=
  match failure.reason with
  | .connection _ => .connection
  | .protocol => .protocol
  | .remote _ => .remote
  | .notFound => .notFound

/-- Adds an outer layer; the reason stays. -/
def within (layer : Context) (failure : Failure) : Failure :=
  { failure with outer := layer :: failure.outer }

/-- Whether the queried subscription does not exist. -/
def isNotFound (failure : Failure) : Bool :=
  failure.reason = .notFound

/-- All layers of context, the outermost first. -/
def layers (failure : Failure) : List Context :=
  failure.outer ++ [failure.context]

/-- The message: the layers from the outermost in, then the details of the reason. -/
def message (failure : Failure) : String :=
  ": ".intercalate (failure.layers.map Context.text ++ failure.reason.details)

end Failure

/-- Adds an outer layer to a failed result; a success stays as it is. -/
def inContext {α : Type} (outer : Context) (result : Except Failure α) : Except Failure α :=
  result.mapError (Failure.within outer)

/-- Adds an outer layer that is made only if there is a failure. -/
def inMadeContext {α : Type} (outer : Unit → Context) (result : Except Failure α) :
    Except Failure α :=
  result.mapError fun failure => failure.within (outer ())

end ConsumerGroups
