import ConsumerGroups.Proofs.Ownership.Ledger
import ConsumerGroups.Proofs.Registry.Chroots
import ConsumerGroups.Proofs.Simulated.Chronicle
import ConsumerGroups.Proofs.Simulated.Costs
import ConsumerGroups.Proofs.Simulated.Histories

/-! # Registrations and the chroot they are made under

Owners and groups are recorded under a chroot, and scans look under the same chroot. What was
recorded is found if the chroot leads down by names. If it has two slashes in a row, the nodes that
are recorded stand apart: the nodes above them are made on the way down by names, which is another
way, so that nothing above them is there to be listed.
-/

namespace ConsumerGroups.Ownership

open Simulated NodePath RegistryState

/-! ## Registrations -/

/-- A client is recorded as an owner, at a node of any name, or a group is. -/
inductive Registration
  | own (group topic : NodeName) (node client : String)
  | register (group : NodeName)
deriving DecidableEq

namespace Registration

def edit (chroot : String) : Registration → RegistryEdit
  | own group topic node client => .recordOwner chroot group.text topic.text node client
  | register group => .recordGroup chroot group.text

/-- The node that is created. -/
def path (chroot : String) : Registration → String
  | own group topic node _ => owner chroot group.text topic.text node
  | register name => group chroot name.text

def bytes : Registration → List UInt8
  | own _ _ _ client => Text.encodeUtf8 client
  | register _ => []

theorem apply_edit (registration : Registration) (chroot : String) (registry : RegistryState) :
    (registration.edit chroot).apply registry =
      registry.create (registration.path chroot) registration.bytes := by
  cases registration <;> rfl

end Registration

/-- The registry that registrations under a chroot make of an empty one. -/
def registered (chroot : String) (history : List Registration) : RegistryState :=
  madeBy (history.map (Registration.edit chroot))

section Registered

variable {chroot : String} {history : List Registration}

theorem registered_append_singleton (chroot : String) (history : List Registration)
    (registration : Registration) :
    registered chroot (history ++ [registration]) =
      (registered chroot history).create (registration.path chroot) registration.bytes := by
  rw [registered, List.map_append, List.map_singleton, madeBy_append_singleton,
    Registration.apply_edit]
  rfl

theorem failing_registered (chroot : String) (history : List Registration) :
    (registered chroot history).failing = ∅ := by
  induction history using List.reverseRecOn with
  | nil => rfl
  | append_singleton history registration ih =>
      rw [registered_append_singleton]
      exact ih

/-- Every node was created itself, or made on the way down by names to one that was. -/
theorem mem_registered {key : String} (hkey : key ∈ (registered chroot history).nodes) :
    (∃ names, key = down names) ∨ ∃ registration ∈ history, key = registration.path chroot := by
  induction history using List.reverseRecOn with
  | nil => simp [registered] at hkey
  | append_singleton history registration ih =>
      rw [registered_append_singleton, mem_create] at hkey
      rcases hkey with hpath | habove | hold
      · exact .inr ⟨registration, by simp, hpath⟩
      · obtain ⟨names, hnames⟩ := exists_names (registration.path chroot)
        obtain ⟨upper, -, -, -, -, hupper⟩ := (mem_ancestors hnames).mp habove
        exact .inl ⟨upper, hupper⟩
      · refine (ih hold).imp_right ?_
        rintro ⟨earlier, hmem, hpath⟩
        exact ⟨earlier, List.mem_append_left _ hmem, hpath⟩

end Registered

/-! ## Chroots with two slashes in a row -/

section Doubled

variable {chroot : String} {history : List Registration}

/-- How many slashes a path has; nodes at different depths under a chroot differ in it. -/
def slashes (path : String) : Nat :=
  path.toList.count '/'

theorem slashes_append (first second : String) :
    slashes (first ++ second) = slashes first + slashes second := by
  simp [slashes, String.toList_append]

theorem slashes_name (name : NodeName) : slashes name.text = 0 :=
  List.count_eq_zero.mpr name.slashFree

theorem slashes_groups (chroot : String) : slashes (groups chroot) = slashes chroot + 1 := by
  rw [groups, slashes_append]
  rfl

theorem slashes_owners (chroot : String) (name topic : NodeName) :
    slashes (owners chroot name.text topic.text) = slashes chroot + 4 := by
  rw [owners, group, slashes_append, slashes_append, slashes_append, slashes_append, slashes_groups,
    slashes_name, slashes_name]
  rfl

/-- What is recorded is neither the node of all groups nor the one of a topic. -/
theorem slashes_path (registration : Registration) (chroot : String) :
    slashes (registration.path chroot) = slashes chroot + 2 ∨
      slashes chroot + 5 ≤ slashes (registration.path chroot) := by
  cases registration with
  | own name topic node client =>
      right
      rw [Registration.path, owner, slashes_append, slashes_append, slashes_owners]
      have hslash : slashes "/" = 1 := rfl
      omega
  | register name =>
      left
      rw [Registration.path, group, slashes_append, slashes_append, slashes_groups, slashes_name]
      rfl

theorem groups_not_mem (hdoubles : DoublesSlash chroot) :
    groups chroot ∉ (registered chroot history).nodes := by
  intro hmem
  rcases mem_registered hmem with ⟨names, hnames⟩ | ⟨registration, -, hpath⟩
  · exact not_doublesSlash_down names (hnames ▸ hdoubles.append "/consumers")
  · have hcount := slashes_path registration chroot
    rw [← hpath, slashes_groups] at hcount
    omega

theorem owners_not_mem (hdoubles : DoublesSlash chroot) (name topic : NodeName) :
    owners chroot name.text topic.text ∉ (registered chroot history).nodes := by
  intro hmem
  rcases mem_registered hmem with ⟨names, hnames⟩ | ⟨registration, -, hpath⟩
  · have howners : DoublesSlash (owners chroot name.text topic.text) :=
      ((((hdoubles.append _).append _).append _).append _).append _
    exact not_doublesSlash_down names (hnames ▸ howners)
  · have hcount := slashes_path registration chroot
    rw [← hpath, slashes_owners] at hcount
    omega

end Doubled

/-! ## Scans -/

section Scans

variable {registry : RegistryState} {chroot topic : String}

/-- The nodes of the owners of a topic in a group are named by partitions. -/
def Numbered (registry : RegistryState) (chroot group topic : String) : Prop :=
  ∀ names, registry.children (owners chroot group topic) = .ok names →
    ∀ name ∈ names, ∃ partition, Text.readInt32? name = some partition

/-- Where no path fails, a listed node with a partition for its name makes a claim. -/
theorem claimAt_child (hworking : registry.failing = ∅) {group name : String}
    {names : List String} (hnames : registry.children (owners chroot group topic) = .ok names)
    (hname : name ∈ names) {partition : Int32}
    (hpartition : Text.readInt32? name = some partition) :
    ∃ bytes, registry.nodes[owner chroot group topic name]? = some bytes ∧
      claimAt (repliesOf registry) chroot group topic name =
        .ok (Text.decodeUtf8 bytes, partition) := by
  obtain ⟨hmem, -⟩ := (mem_children hnames).mp hname
  obtain ⟨bytes, hbytes⟩ := Option.isSome_iff_exists.mp
    (Std.ExtTreeMap.mem_iff_isSome_getElem?.mp hmem)
  have hread : registry.read (owner chroot group topic name) = .ok bytes :=
    answer_eq_ok.mpr ⟨by simp [hworking], bytes, hbytes, rfl⟩
  refine ⟨bytes, hbytes, ?_⟩
  unfold claimAt
  rw [partitionOfNode, hpartition]
  change Except.mapError _ (registry.read _) >>= _ = _
  rw [hread]
  rfl

theorem scanOf_of_numbered (hworking : registry.failing = ∅) {group : String}
    (hthere : owners chroot group topic ∈ registry.nodes)
    (hnumbered : Numbered registry chroot group topic) :
    ∃ ownership, scanOf (repliesOf registry) chroot group topic = .ok ownership := by
  rcases children_cases hworking (owners chroot group topic) with
    ⟨-, names, hnames⟩ | ⟨habsent, -⟩
  · obtain ⟨claims, hclaims⟩ := Results.exists_successes fun name hname => by
      obtain ⟨partition, hpartition⟩ := hnumbered names hnames name hname
      obtain ⟨bytes, -, hclaim⟩ := claimAt_child hworking hnames hname hpartition
      exact ⟨_, hclaim⟩
    exact ⟨_, scanOf_eq_ok.mpr ⟨names, claims, hnames, hclaims, rfl⟩⟩
  · exact absurd hthere habsent

/-- A scan that succeeds lists every partition under the client that is recorded at its node. -/
theorem owned_of_scanOf (hworking : registry.failing = ∅) {group client : String}
    {partition : Int32} {ownership : Ownership}
    (hscan : scanOf (repliesOf registry) chroot group topic = .ok ownership)
    (hnode : registry.nodes[owner chroot group topic (toString partition)]? =
      some (Text.encodeUtf8 client)) :
    ∃ owned, ownership[client]? = some owned ∧ partition ∈ owned := by
  obtain ⟨names, claims, hnames, hclaims, rfl⟩ := scanOf_eq_ok.mp hscan
  have hname : toString partition ∈ names := by
    refine (mem_children hnames).mpr ⟨?_, (partitionName partition).slashFree⟩
    change owner chroot group topic (toString partition) ∈ registry.nodes
    rw [Std.ExtTreeMap.mem_iff_isSome_getElem?, hnode]
    rfl
  obtain ⟨bytes, hbytes, hclaim⟩ :=
    claimAt_child hworking hnames hname (Text.readInt32?_toString partition)
  rw [hnode] at hbytes
  obtain ⟨claim, hmem, hmade⟩ := Results.mem_of_successes hclaims hname
  rw [hclaim, ← Option.some.inj hbytes, Text.decodeUtf8_encodeUtf8] at hmade
  cases hmade
  have hlists := lists_ofClaims claims
  have hclient := (hlists.clients client).mpr ⟨partition, hmem⟩
  obtain ⟨owned, howned⟩ := Option.isSome_iff_exists.mp
    (Std.ExtTreeMap.mem_iff_isSome_getElem?.mp hclient)
  exact ⟨owned, howned, ((hlists.partitions client owned howned).2 partition).mpr hmem⟩

theorem claimAt_isNotFound {replies : Canned.RegistryReplies} {group name : String}
    {failure : Failure} (hclaim : claimAt replies chroot group topic name = .error failure) :
    failure.isNotFound = false := by
  unfold claimAt partitionOfNode at hclaim
  cases hpartition : Text.readInt32? name with
  | none =>
      rw [hpartition] at hclaim
      cases hclaim
      rfl
  | some partition =>
      rw [hpartition] at hclaim
      cases hread : replies.read (owner chroot group topic name) with
      | ok bytes =>
          rw [hread] at hclaim
          cases hclaim
      | error fault =>
          rw [hread] at hclaim
          cases hclaim
          cases fault <;> rfl

/-- A scan that finds no subscription met no node of the topic. -/
theorem absent_of_isNotFound {replies : Canned.RegistryReplies} {group : String}
    {failure : Failure} (hscan : scanOf replies chroot group topic = .error failure)
    (hkind : failure.isNotFound = true) :
    replies.children (owners chroot group topic) = .error .absent := by
  unfold scanOf at hscan
  rcases hlisting : replies.children (owners chroot group topic) with (_ | cause) | names
  · rfl
  · rw [hlisting] at hscan
    cases hscan
    cases hkind
  · rw [hlisting] at hscan
    change (names.mapM (claimAt replies chroot group topic)).map ofClaims = .error failure at hscan
    rw [Results.map_eq_error] at hscan
    obtain ⟨name, -, hclaim⟩ := Results.mapM_eq_error hscan
    rw [claimAt_isNotFound hclaim] at hkind
    cases hkind

/-- The scan of all groups succeeds where every listed group that consumes the topic has numbered
owners. -/
theorem scanGroupsOf_of_numbered (hworking : registry.failing = ∅)
    (hthere : groups chroot ∈ registry.nodes)
    (hnumbered : ∀ names, registry.children (groups chroot) = .ok names → ∀ name ∈ names,
      Numbered registry chroot name topic) :
    ∃ found, scanGroupsOf (repliesOf registry) chroot topic = .ok found := by
  rcases children_cases hworking (groups chroot) with ⟨-, names, hnames⟩ | ⟨habsent, -⟩
  · obtain ⟨made, hgathered, -⟩ := gathered_scanGroupsOf (repliesOf registry) topic hnames
    generalize scanGroupsOf (repliesOf registry) chroot topic = result at hgathered
    cases hgathered with
    | @finished found _ _ => exact ⟨found, rfl⟩
    | @stopped before after name failure failed hgroups hgoesOn hfailure hkind hreason hmessage =>
        rcases children_cases hworking (owners chroot name topic) with ⟨howners, -⟩ | ⟨-, hgone⟩
        · obtain ⟨ownership, hscan⟩ := scanOf_of_numbered hworking howners
            (hnumbered names hnames name (hgroups ▸ by simp))
          rw [hfailure] at hscan
          cases hscan
        · rw [scanOf_of_absent hgone] at hfailure
          cases hfailure
          cases hkind
  · exact absurd hthere habsent

/-- What the scan of all groups comes to holds every group with an owner recorded for the topic. -/
theorem mem_of_scanGroupsOf (hworking : registry.failing = ∅) {name : NodeName}
    {client : String} {partition : Int32} {found : GroupOwnership}
    (hfound : scanGroupsOf (repliesOf registry) chroot topic = .ok found)
    (hgroup : group chroot name.text ∈ registry.nodes)
    (howners : owners chroot name.text topic ∈ registry.nodes)
    (hnode : registry.nodes[owner chroot name.text topic (toString partition)]? =
      some (Text.encodeUtf8 client)) :
    name.text ∈ found := by
  rcases hlisted : registry.children (groups chroot) with fault | names
  · rw [scanGroupsOf_of_fault (repliesOf registry) topic hlisted] at hfound
    cases hfound
  · obtain ⟨made, hgathered, -⟩ := gathered_scanGroupsOf (repliesOf registry) topic hlisted
    rw [hfound] at hgathered
    cases hgathered with
    | finished hgoesOn hcollects =>
        have hname : name.text ∈ names := (mem_children hlisted).mpr ⟨hgroup, name.slashFree⟩
        cases hscan : scanOf (repliesOf registry) chroot name.text topic with
        | error failure =>
            have habsent := absent_of_isNotFound hscan (hgoesOn name.text hname failure hscan)
            exact absurd howners (answer_eq_absent.mp habsent).2
        | ok ownership =>
            obtain ⟨owned, howned, -⟩ := owned_of_scanOf hworking hscan hnode
            have hsome : ownership.isEmpty = false := by
              rw [← Bool.not_eq_true, Std.ExtTreeMap.isEmpty_iff]
              rintro rfl
              simp at howned
            have hcollected := (hcollects name.text ownership).mpr ⟨hname, hscan, hsome⟩
            rw [Std.ExtTreeMap.mem_iff_isSome_getElem?, hcollected]
            rfl

end Scans

/-! ## What is found -/

/-- What the scans come to tells of an owner recorded last: its topic is known to be consumed by the
group, the client owns the partition, and the group is one of those that own anything. A node whose
name is no partition is in the way of the scans that meet it. -/
structure Finds (registry : RegistryState) (chroot : String) (group topic : NodeName)
    (partition : Int32) (client : String) (single : Except Failure Ownership)
    (all : Except Failure GroupOwnership) : Prop where
  known : ∀ failure, single = .error failure → failure.isNotFound = false
  owned : Numbered registry chroot group.text topic.text → ∃ ownership owned,
    single = .ok ownership ∧ ownership[client]? = some owned ∧ partition ∈ owned
  gathered : (∀ names, registry.children (groups chroot) = .ok names → ∀ name ∈ names,
    Numbered registry chroot name topic.text) → ∃ found, all = .ok found
  grouped : ∀ found, all = .ok found → group.text ∈ found

section Found

variable {chroot : String} {history : List Registration}

/-- Under a chroot that leads down by names, the nodes above a recorded owner are all there. -/
theorem finds_down (root : List NodeName) (history : List Registration) (group topic : NodeName)
    (partition : Int32) (client : String) :
    let registry :=
      registered (down root) (history ++ [.own group topic (toString partition) client])
    Finds registry (down root) group topic partition client
      (scanOf (repliesOf registry) (down root) group.text topic.text)
      (scanGroupsOf (repliesOf registry) (down root) topic.text) := by
  intro registry
  have hworking : registry.failing = ∅ := failing_registered _ _
  have hpath : owner (down root) group.text topic.text (toString partition) =
      down (root ++ [consumersName, group, ownersName, topic, partitionName partition]) :=
    owner_down root group topic (partitionName partition)
  have hcreated : registry = (registered (down root) history).create
      (down (root ++ [consumersName, group, ownersName, topic, partitionName partition]))
      (Text.encodeUtf8 client) := by
    rw [← hpath]
    exact registered_append_singleton _ _ _
  have habove (names : List NodeName) (hnames : names ≠ [])
      (hupper : names <+: [consumersName, group, ownersName, topic, partitionName partition]) :
      down (root ++ names) ∈ registry.nodes := by
    rw [hcreated, mem_create_down]
    exact .inr (.inl ⟨by simp [hnames], (List.prefix_append_right_inj root).mpr hupper⟩)
  have hgroups : groups (down root) ∈ registry.nodes := by
    rw [groups_down]
    exact habove [consumersName] (by simp) (by simp)
  have hgroup : NodePath.group (down root) group.text ∈ registry.nodes := by
    rw [group_down]
    exact habove [consumersName, group] (by simp) (by simp)
  have howners : owners (down root) group.text topic.text ∈ registry.nodes := by
    rw [owners_down]
    exact habove [consumersName, group, ownersName, topic] (by simp) (by simp)
  have hnode : registry.nodes[owner (down root) group.text topic.text (toString partition)]? =
      some (Text.encodeUtf8 client) := by
    rw [hpath, hcreated, getElem?_create_down, if_pos rfl]
  constructor
  case known =>
    intro failure hscan
    by_contra hkind
    have habsent := absent_of_isNotFound hscan (Bool.not_eq_false _ ▸ hkind)
    exact (answer_eq_absent.mp habsent).2 howners
  case owned =>
    intro hnumbered
    obtain ⟨ownership, hscan⟩ := scanOf_of_numbered hworking howners hnumbered
    obtain ⟨owned, howned, hpartition⟩ := owned_of_scanOf hworking hscan hnode
    exact ⟨ownership, owned, hscan, howned, hpartition⟩
  case gathered => exact scanGroupsOf_of_numbered hworking hgroups
  case grouped => exact fun found hfound => mem_of_scanGroupsOf hworking hfound hgroup howners hnode

/-- Under a chroot with two slashes in a row, no topic is known and there are no groups. -/
theorem lost_of_doublesSlash (hdoubles : DoublesSlash chroot) (group topic : NodeName) :
    scanOf (repliesOf (registered chroot history)) chroot group.text topic.text =
        .error (.notFound .subscriptionAbsent) ∧
      scanGroupsOf (repliesOf (registered chroot history)) chroot topic.text =
        .error ((Failure.protocol .nodeAbsent).within .groupsListing) := by
  have hworking := failing_registered chroot history
  have hfree (path : String) : (registered chroot history).failing[path]? = none := by
    simp [hworking]
  constructor
  · exact scanOf_of_absent (answer_eq_absent.mpr ⟨hfree _, owners_not_mem hdoubles group topic⟩)
  · exact scanGroupsOf_of_fault (repliesOf (registered chroot history)) topic.text
      (answer_eq_absent.mpr ⟨hfree _, groups_not_mem hdoubles⟩)

end Found

/-! ## The console -/

section Session

variable {session : Session} {view : Registry World}

theorem registry_connectRegistry (session : Session) :
    session.connectRegistry.world.registry = session.world.registry := by
  rcases session with ⟨⟨_, _, _, _, refusing⟩, ⟨_, _, ⟨cluster, registry, closed⟩⟩, _⟩
  cases closed <;> cases registry <;> cases refusing <;> rfl

/-- A console that reaches the registry does over it what it does over the world's. -/
theorem console_run {α : Type} (hwired : session.Wired)
    (hreached : session.registryReached = .ok view) (task : Registry World → String → Errand World α) :
    ((Links.reachRegistry >>= fun registry => Console.chroot >>= fun chroot =>
      LinkedErrand.ofTask (task registry chroot)).runFrom session.console session.world).1.1 =
      ((task World.registryView session.console.settings.registry.chroot).runFrom
        session.connectRegistry.world).1 := by
  have hrun := Session.overRegistry_run hwired task
  rw [hreached] at hrun
  exact congrArg Prod.fst hrun

/-- What a console tells about the owners in a group is what the nodes of the registry tell. -/
theorem owners_run (hwired : session.Wired) (hreached : session.registryReached = .ok view)
    (group topic : String) :
    ((Console.owners group topic).runFrom session.console session.world).1.1 =
      scanOf (repliesOf session.world.registry) session.console.settings.registry.chroot group
        topic := by
  have hsteady := World.steady_registryView session.connectRegistry.world
  rw [← registry_connectRegistry]
  exact (console_run hwired hreached fun registry chroot => scan registry chroot group topic).trans
    ((told_scan _ _ _ _).of_steady hsteady).1

/-- What a console tells about the owners in all groups is what the nodes of the registry tell. -/
theorem ownersByGroup_run (hwired : session.Wired) (hreached : session.registryReached = .ok view)
    (topic : String) :
    ((Console.ownersByGroup topic).runFrom session.console session.world).1.1 =
      scanGroupsOf (repliesOf session.world.registry) session.console.settings.registry.chroot
        topic := by
  have hsteady := World.steady_registryView session.connectRegistry.world
  rw [← registry_connectRegistry]
  exact (console_run hwired hreached fun registry chroot => scanGroups registry chroot topic).trans
    ((told_scanGroups _ _ _).of_steady hsteady).1

/-- Whatever was recorded under the chroot of accepted settings, a console with these settings finds
the owner recorded last exactly if the chroot has no two slashes in a row. If it has, the console is
told that the topic or the group is incorrect, and cannot list the groups. -/
theorem finds_iff (hwired : session.Wired) (hreached : session.registryReached = .ok view)
    (hcheck : session.console.settings.check = .ok ()) {chroot : String}
    (hchroot : session.console.settings.registry.chroot = chroot) {history : List Registration}
    {group topic : NodeName} {partition : Int32} {client : String}
    (hregistry : session.world.registry =
      registered chroot (history ++ [.own group topic (toString partition) client])) :
    let single :=
      ((Console.owners group.text topic.text).runFrom session.console session.world).1.1
    let all := ((Console.ownersByGroup topic.text).runFrom session.console session.world).1.1
    (Finds session.world.registry chroot group topic partition client single all ↔
        ¬DoublesSlash chroot) ∧
      (DoublesSlash chroot → single = .error (.notFound .subscriptionAbsent) ∧
        all = .error ((Failure.protocol .nodeAbsent).within .groupsListing)) := by
  intro single all
  have hsingle : single =
      scanOf (repliesOf session.world.registry) chroot group.text topic.text := by
    rw [← hchroot]
    exact owners_run hwired hreached group.text topic.text
  have hall : all = scanGroupsOf (repliesOf session.world.registry) chroot topic.text := by
    rw [← hchroot]
    exact ownersByGroup_run hwired hreached topic.text
  have hlost : DoublesSlash chroot → single = .error (.notFound .subscriptionAbsent) ∧
      all = .error ((Failure.protocol .nodeAbsent).within .groupsListing) := by
    intro hdoubles
    rw [hsingle, hall, hregistry]
    exact lost_of_doublesSlash hdoubles group topic
  refine ⟨⟨fun hfinds hdoubles => ?_, fun hsingleSlashes => ?_⟩, hlost⟩
  · have hknown := hfinds.known _ (hlost hdoubles).1
    cases hknown
  · have hvalid : isChroot chroot = true := hchroot ▸ isChroot_of_check hcheck
    obtain ⟨root, rfl⟩ := exists_down_of_isChroot hvalid hsingleSlashes
    rw [hsingle, hall, hregistry]
    exact finds_down root history group topic partition client

/-- A group that only registered, and two owners of one topic, one of them at a node with a plus
sign in its name. -/
theorem finds_second_owner :
    let settings : Settings := { registry := { chroot := "/a/b" } }
    let session := Session.after settings
      [.editRegistry (.recordOwner "/a/b" "g" "t" "+4" "d"),
        .editRegistry (.recordGroup "/a/b" "h"),
        .editRegistry (.recordOwner "/a/b" "g" "t" "0" "c")]
    ∃ ownership owned,
      ((Console.owners "g" "t").runFrom session.console session.world).1.1 = .ok ownership ∧
        ownership["c"]? = some owned ∧ 0 ∈ owned := by
  intro settings session
  let a : NodeName := ⟨"a", by decide, by decide⟩
  let b : NodeName := ⟨"b", by decide, by decide⟩
  let g : NodeName := ⟨"g", by decide, by decide⟩
  let h : NodeName := ⟨"h", by decide, by decide⟩
  let t : NodeName := ⟨"t", by decide, by decide⟩
  have hsingle : ¬DoublesSlash "/a/b" := not_doublesSlash_down [a, b]
  have hwired : session.Wired := Session.after_wired settings _
  have hreached : session.registryReached = .ok World.registryView := rfl
  have hcheck : session.console.settings.check = .ok () := by
    change settings.check = .ok ()
    simp [settings, Settings.check, isChroot]
  have hregistry : session.world.registry =
      registered "/a/b"
        ([.own g t "+4" "d", .register h] ++ [.own g t (toString (0 : Int32)) "c"]) := rfl
  have hfinds := (finds_iff hwired hreached hcheck rfl hregistry).1.mpr hsingle
  have hlisted : (madeBy [.recordOwner "/a/b" "g" "t" "+4" "d", .recordGroup "/a/b" "h",
      .recordOwner "/a/b" "g" "t" "0" "c"]).children (owners "/a/b" "g" "t") = .ok ["+4", "0"] := by
    rfl
  have hnumbered : Numbered session.world.registry "/a/b" "g" "t" := by
    intro names hnames name hname
    obtain rfl : ["+4", "0"] = names := Except.ok.inj (hlisted.symm.trans hnames)
    simp only [List.mem_cons, List.not_mem_nil, or_false] at hname
    rcases hname with rfl | rfl
    · exact ⟨4, by decide⟩
    · exact ⟨0, by decide⟩
  have hgroup : g.text = "g" := rfl
  have htopic : t.text = "t" := rfl
  have hfound := hfinds.owned hnumbered
  rw [hgroup, htopic] at hfound
  exact hfound

/-- The settings are accepted, and what is recorded under their chroot is lost. -/
theorem owner_lost_under_doubled_slash :
    let settings : Settings := { registry := { chroot := "/a//b" } }
    let session := Session.after settings [.editRegistry (.recordOwner "/a//b" "g" "t" "0" "c")]
    settings.check = .ok () ∧
      ((Session.step (.call (.console (.owners "g" "t")))).run session).1 =
        .call (.owners (.error (.notFound .subscriptionAbsent))) ∧
      ((Session.step (.call (.console (.ownersByGroup "t")))).run session).1 =
        .call (.ownersByGroup (.error ((Failure.protocol .nodeAbsent).within .groupsListing))) := by
  exact ⟨by rfl, by rfl, by rfl⟩

end Session

end ConsumerGroups.Ownership
