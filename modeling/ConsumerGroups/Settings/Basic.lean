/-! # Settings

Where to find the cluster and the registry. Settings have to name at least one peer of each,
and a chroot, under which all nodes of the registry lie, is empty or a path that starts with a
slash and does not end with one.
-/

namespace ConsumerGroups

structure ClusterSettings where
  seedPeers : List String := ["localhost:9092"]
  clientId : String := "kafka-admin"
deriving DecidableEq, Repr

/-- How to reach the registry, and the path in front of every path that is read. -/
structure RegistrySettings where
  seedPeers : List String := ["localhost:2181"]
  chroot : String := ""
  sessionTimeoutMs : UInt64 := 1000
deriving DecidableEq, Repr

structure Settings where
  cluster : ClusterSettings := {}
  registry : RegistrySettings := {}
deriving DecidableEq, Repr

/-- Why settings are refused. -/
inductive SettingsFault
  | unreadable (path : String)
  | malformed
  | noClusterPeers
  | noRegistryPeers
  | badChroot (chroot : String)
deriving DecidableEq, Repr

def SettingsFault.message : SettingsFault → String
  | unreadable path => s!"failed to read admin config, path={path}"
  | malformed => "failed to parse admin config"
  | noClusterPeers => "kafka.seed_peers must not be empty"
  | noRegistryPeers => "tree_store.seed_peers must not be empty"
  | badChroot chroot =>
    "tree_store.chroot must start with '/' and must not end with '/', chroot=" ++ chroot

/-- Whether nodes may lie under a chroot. -/
def isChroot (chroot : String) : Bool :=
  chroot.isEmpty || (chroot.toList.head? = some '/' && chroot.toList.getLast? ≠ some '/')

/-- Checks settings; of several faults the first in this order is reported. -/
def Settings.check (settings : Settings) : Except SettingsFault Unit :=
  if settings.cluster.seedPeers.isEmpty then .error .noClusterPeers
  else if settings.registry.seedPeers.isEmpty then .error .noRegistryPeers
  else if isChroot settings.registry.chroot then .ok ()
  else .error (.badChroot settings.registry.chroot)

end ConsumerGroups
