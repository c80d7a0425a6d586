import ConsumerGroups.Json.Printer
import ConsumerGroups.Json.Reader
import ConsumerGroups.Json.Record
import ConsumerGroups.Settings.Basic
import ConsumerGroups.Text.Utf8

/-! # Settings in JSON

Settings are read from a JSON text, with a default for every field that is missing, and checked
before they are used. They are written with all their fields.
-/

namespace ConsumerGroups

open Json (toFields?)

namespace ClusterSettings

def ofJson? (json : Json) : Option ClusterSettings := do
  let fields ← toFields? ["seed_peers", "client_id"] json
  let default : ClusterSettings := {}
  let seedPeers ← fields.optional? "seed_peers" default.seedPeers Json.toStrings?
  let clientId ← fields.optional? "client_id" default.clientId Json.toString?
  pure { seedPeers, clientId }

def toJson (settings : ClusterSettings) : Json :=
  .ofMembers
    [("seed_peers", .array (settings.seedPeers.map .ofString)),
     ("client_id", .ofString settings.clientId)]

end ClusterSettings

namespace RegistrySettings

def ofJson? (json : Json) : Option RegistrySettings := do
  let fields ← toFields? ["seed_peers", "chroot", "session_timeout_ms"] json
  let default : RegistrySettings := {}
  let seedPeers ← fields.optional? "seed_peers" default.seedPeers Json.toStrings?
  let chroot ← fields.optional? "chroot" default.chroot Json.toString?
  let sessionTimeoutMs ←
    fields.optional? "session_timeout_ms" default.sessionTimeoutMs Json.toUInt64?
  pure { seedPeers, chroot, sessionTimeoutMs }

def toJson (settings : RegistrySettings) : Json :=
  .ofMembers
    [("seed_peers", .array (settings.seedPeers.map .ofString)),
     ("chroot", .ofString settings.chroot),
     ("session_timeout_ms", .ofInt settings.sessionTimeoutMs.toNat)]

end RegistrySettings

namespace Settings

def ofJson? (json : Json) : Option Settings := do
  let fields ← toFields? ["kafka", "tree_store"] json
  let cluster ← fields.optional? "kafka" {} ClusterSettings.ofJson?
  let registry ← fields.optional? "tree_store" {} RegistrySettings.ofJson?
  pure { cluster, registry }

def toJson (settings : Settings) : Json :=
  .ofMembers [("kafka", settings.cluster.toJson), ("tree_store", settings.registry.toJson)]

/-- Reads and checks settings. -/
def read (text : String) : Except SettingsFault Settings :=
  match (Json.parse? text).bind ofJson? with
  | none => .error .malformed
  | some settings => settings.check.map fun _ => settings

/-- Reads settings from the contents of a file, if it has any that are text. -/
def readContents (path : String) (contents : Option (List UInt8)) :
    Except SettingsFault Settings :=
  match contents.bind Text.decodeUtf8? with
  | none => .error (.unreadable path)
  | some text => read text

end Settings

end ConsumerGroups
