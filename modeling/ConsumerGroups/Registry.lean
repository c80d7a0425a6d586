import ConsumerGroups.Errand

/-! # The registry as its callers see it

A registry keeps bytes at the nodes of a tree. Consumer groups register in it, and each client
of a group leaves its name at the node of every partition it owns:

    {chroot}/consumers/{group}/owners/{topic}/{partition}
-/

namespace ConsumerGroups

/-- Why a node cannot be read: it does not exist, or the registry itself fails. -/
inductive RegistryFault
  | absent
  | broken (cause : Cause)
deriving DecidableEq, Repr

def RegistryFault.text : RegistryFault → String
  | absent => Context.nodeAbsent.text
  | broken cause => cause.text

/-- The failure that a fault amounts to. A node missing under a live session means that the
tree does not have the expected shape; anything else is a failure of the registry. -/
def RegistryFault.toFailure (context : Context) : RegistryFault → Failure
  | absent => (Failure.protocol .nodeAbsent).within context
  | broken cause => .connection context cause

/-- A view of a registry whose state is part of `σ`. -/
structure Registry (σ : Type) where
  children : String → StateM σ (Except RegistryFault (List String))
  read : String → StateM σ (Except RegistryFault (List UInt8))
  close : StateM σ Unit

namespace NodePath

/-- The node under which all groups register. -/
def groups (chroot : String) : String :=
  chroot ++ "/consumers"

def group (chroot group : String) : String :=
  groups chroot ++ "/" ++ group

/-- The node under which the owners of a topic's partitions stand. -/
def owners (chroot group topic : String) : String :=
  NodePath.group chroot group ++ "/owners/" ++ topic

/-- The node that names the owner of one partition. -/
def owner (chroot group topic node : String) : String :=
  owners chroot group topic ++ "/" ++ node

end NodePath

end ConsumerGroups
