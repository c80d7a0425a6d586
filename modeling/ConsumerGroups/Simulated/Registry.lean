import ConsumerGroups.Registry
import ConsumerGroups.Simulated.Table
import ConsumerGroups.Simulated.Trouble
import ConsumerGroups.Text.Utf8

/-! # A simulated registry

The tree is kept flat, as a table from the paths of its nodes to their bytes. A node lies below
another when its path goes on from the other's with a slash. Creating a node creates the nodes
above it, and removing a node removes everything below it.
-/

namespace ConsumerGroups.Simulated

/-- What is left of a path below a node, if it lies below it. -/
def below? (path node : String) : Option String :=
  ((path.toList ++ ['/']).isPrefixOf? node.toList).map String.ofList

/-- The name of a node directly below another, if it lies there. -/
def childName? (path node : String) : Option String :=
  (below? path node).filter fun name => !name.toList.contains '/'

/-- The non-empty names between the slashes of a path. -/
def segments (path : String) : List String :=
  ((path.toList.splitOn '/').filter (!·.isEmpty)).map String.ofList

/-- The paths passed on the way from a node down some names to the last of them, which is left
out. -/
def pathsDown (start : String) : List String → List String
  | [] => []
  | [_] => []
  | name :: rest => (start ++ "/" ++ name) :: pathsDown (start ++ "/" ++ name) rest

/-- The paths of the nodes above a node, the topmost first. -/
def ancestors (path : String) : List String :=
  pathsDown "" (segments path)

/-- The nodes of a simulated registry, and the paths whose reading fails. -/
structure RegistryState where
  nodes : Table String (List UInt8) := ∅
  failing : Table String String := ∅
  closed : Bool := false

namespace RegistryState

/-- Creates a node; the nodes above it that are missing are created empty. -/
def create (registry : RegistryState) (path : String) (bytes : List UInt8) : RegistryState :=
  let addAbove (nodes : Table String (List UInt8)) (above : String) := nodes.insertIfNew above []
  { registry with nodes := ((ancestors path).foldl addAbove registry.nodes).insert path bytes }

/-- Removes a node and everything below it. -/
def remove (registry : RegistryState) (path : String) : RegistryState :=
  let stays (node : String) : Bool := node ≠ path && (below? path node).isNone
  { registry with nodes := registry.nodes.filter fun node _ => stays node }

def recordGroup (registry : RegistryState) (chroot group : String) : RegistryState :=
  registry.create (NodePath.group chroot group) []

/-- Names the owner of a partition at the partition's node. -/
def recordOwner (registry : RegistryState) (chroot group topic node client : String) :
    RegistryState :=
  registry.create (NodePath.owner chroot group topic node) (Text.encodeUtf8 client)

def blockPath (registry : RegistryState) (path reason : String) : RegistryState :=
  { registry with failing := registry.failing.insert path reason }

/-- An answer about a node that exists; a failing path fails whether it exists or not. -/
def answer {α : Type} (registry : RegistryState) (path : String) (f : List UInt8 → α) :
    Except RegistryFault α :=
  match registry.failing[path]? with
  | some reason => .error (.broken (Trouble.pathFailing path reason).cause)
  | none =>
    match registry.nodes[path]? with
    | some bytes => .ok (f bytes)
    | none => .error .absent

/-- The names of the nodes directly below a node, in order. The paths of a table ascend, and
paths below one node ascend with what is left of them. -/
def children (registry : RegistryState) (path : String) : Except RegistryFault (List String) :=
  registry.answer path fun _ => registry.nodes.keys.filterMap (childName? path)

def read (registry : RegistryState) (path : String) : Except RegistryFault (List UInt8) :=
  registry.answer path id

end RegistryState

end ConsumerGroups.Simulated
