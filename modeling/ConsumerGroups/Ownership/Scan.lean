import ConsumerGroups.Ownership.Basic
import ConsumerGroups.Registry
import ConsumerGroups.Text.Decimal
import ConsumerGroups.Text.Utf8

/-! # Scanning the registry for owners

The owners of a topic are read node by node, in the order in which the registry lists them. The
first node that cannot be read, or whose name is no partition, ends the scan. A subscription
that does not exist is told apart from a registry that fails: a scan of all groups passes over
the former and stops at the latter.
-/

namespace ConsumerGroups.Ownership

variable {σ : Type}

/-- Reads a node; a fault becomes a failure of the given context. -/
def readNode (registry : Registry σ) (context : Context) (path : String) : Errand σ (List UInt8) :=
  ExceptT.mk do return (← registry.read path).mapError (RegistryFault.toFailure context)

/-- The nodes of the owners of a topic. If there is no such place in the tree, the group does
not consume the topic, or one of them does not exist. -/
def ownerNodes (registry : Registry σ) (chroot group topic : String) : Errand σ (List String) :=
  ExceptT.mk do
    match ← registry.children (NodePath.owners chroot group topic) with
    | .ok nodes => pure (.ok nodes)
    | .error .absent => pure (.error (.notFound .subscriptionAbsent))
    | .error fault => pure (.error (fault.toFailure .ownersListing))

def partitionOfNode (node : String) : Except Failure Int32 :=
  match Text.readInt32? node with
  | some partition => .ok partition
  | none => .error (.protocol (.ownerNodeName node))

/-- Reads the owner at one node and records it. The node's name is looked at first. -/
def claimNode (registry : Registry σ) (chroot group topic : String) (ownership : Ownership)
    (node : String) : Errand σ Ownership := do
  let partition ← Errand.ofExcept (partitionOfNode node)
  let client ← readNode registry (.ownerNode partition) (NodePath.owner chroot group topic node)
  pure (ownership.claim (Text.decodeUtf8 client) partition)

/-- Which client of a group owns which partitions of a topic. -/
def scan (registry : Registry σ) (chroot group topic : String) : Errand σ Ownership := do
  let nodes ← ownerNodes registry chroot group topic
  nodes.foldlM (claimNode registry chroot group topic) ∅

def registeredGroups (registry : Registry σ) (chroot : String) : Errand σ (List String) :=
  ExceptT.mk do
    let listing ← registry.children (NodePath.groups chroot)
    return listing.mapError (RegistryFault.toFailure .groupsListing)

/-- Adds the ownership of one group. A group that does not consume the topic, or in which no
client owns a partition, is left out. -/
def scanGroup (registry : Registry σ) (chroot topic : String) (found : GroupOwnership)
    (group : String) : Errand σ GroupOwnership := do
  match ← (scan registry chroot group topic).attempt with
  | .ok ownership => pure (if ownership.isEmpty then found else found.insert group ownership)
  | .error failure =>
    if failure.isNotFound then pure found else throw (failure.within (.groupData group))

/-- The ownership of a topic within every registered group. -/
def scanGroups (registry : Registry σ) (chroot topic : String) : Errand σ GroupOwnership := do
  let groups ← registeredGroups registry chroot
  groups.foldlM (scanGroup registry chroot topic) ∅

end ConsumerGroups.Ownership
