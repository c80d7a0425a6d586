import ConsumerGroups.Proofs.Ownership.Agreement
import ConsumerGroups.Proofs.Text.Decimal
import ConsumerGroups.Proofs.Text.Utf8

/-! # Ownership as a registry keeps it

What happens to ownership is kept twice: in the tree of a registry, and in a ledger that knows
owners and subscriptions without any tree. The scans of the tree come to what the ledger says,
whatever has happened.
-/

namespace ConsumerGroups.Ownership

open Simulated NodePath

/-! ## Events and the ledger -/

/-- Something that happens to ownership: a client becomes the owner of a partition, a group
registers, an owner's node is removed, or everything of a group is. -/
inductive Event
  | own (group topic : NodeName) (partition : Int32) (client : String)
  | register (group : NodeName)
  | release (group topic : NodeName) (partition : Int32)
  | dissolve (group : NodeName)
deriving DecidableEq

namespace Event

/-- The edit of a registry that an event amounts to, under a root. -/
def edit (root : List NodeName) : Event → RegistryEdit
  | own group topic partition client =>
    .recordOwner (down root) group.text topic.text (toString partition) client
  | register group => .recordGroup (down root) group.text
  | release group topic partition =>
    .remove (NodePath.owner (down root) group.text topic.text (toString partition))
  | dissolve group => .remove (NodePath.group (down root) group.text)

/-- Whether an event creates a node. -/
def creates : Event → Bool
  | own .. | register _ => true
  | release .. | dissolve _ => false

end Event

/-- Who owns what, who consumes what, and whether anything has ever been created. -/
structure Ledger where
  owner : NodeName → NodeName → Int32 → Option String := fun _ _ _ => none
  subscribed : NodeName → NodeName → Bool := fun _ _ => false
  opened : Bool := false

namespace Ledger

/-- A group consumes a topic from its first owner on until the group is dissolved. -/
def record (ledger : Ledger) : Event → Ledger
  | .own group topic partition client =>
    { owner := fun g t p =>
        if g = group ∧ t = topic ∧ p = partition then some client else ledger.owner g t p
      subscribed := fun g t => (g = group ∧ t = topic) || ledger.subscribed g t
      opened := true }
  | .register _ => { ledger with opened := true }
  | .release group topic partition =>
    { ledger with
      owner := fun g t p =>
        if g = group ∧ t = topic ∧ p = partition then none else ledger.owner g t p }
  | .dissolve group =>
    { ledger with
      owner := fun g t p => if g = group then none else ledger.owner g t p
      subscribed := fun g t => g ≠ group && ledger.subscribed g t }

/-- The ledger of a history. -/
def of (history : List Event) : Ledger :=
  history.foldl record {}

end Ledger

/-- The registry of a history, under a root. -/
def registryOf (root : List NodeName) (history : List Event) : RegistryState :=
  (history.map (Event.edit root)).foldl RegistryEdit.apply {}

/-! ## The tree against the ledger -/

/-- The name of the node of a partition. -/
def partitionName (partition : Int32) : NodeName where
  text := toString partition
  nonempty := Text.toString_ne_empty partition
  slashFree hslash := by
    rcases Text.mem_toString hslash with hsign | hdigit
    · exact absurd hsign (by decide)
    · exact absurd hdigit (by decide)

theorem partitionName_inj {partition other : Int32} :
    partitionName partition = partitionName other ↔ partition = other := by
  rw [NodeName.ext_iff]
  exact Text.toString_inj

/-- Whether a tree keeps exactly what a ledger says, under a root. -/
structure Records (root : List NodeName) (registry : RegistryState) (ledger : Ledger) : Prop where
  working : registry.failing = ∅
  named : registry.Named
  /-- The node of all groups is there once anything has been created, and stays. -/
  groups : down (root ++ [consumersName]) ∈ registry.nodes ↔ ledger.opened = true
  /-- A topic's node stands under a group as long as the group consumes the topic. -/
  owners : ∀ group topic,
    down (root ++ [consumersName, group, ownersName, topic]) ∈ registry.nodes ↔
      ledger.subscribed group topic = true
  /-- An owner's node holds the bytes of its name. -/
  owner : ∀ group topic partition,
    registry.nodes[down (root ++
        [consumersName, group, ownersName, topic, partitionName partition])]? =
      (ledger.owner group topic partition).map Text.encodeUtf8
  /-- Nothing but partitions stands under a topic. -/
  partitions : ∀ group topic node,
    down (root ++ [consumersName, group, ownersName, topic, node]) ∈ registry.nodes →
      ∃ partition, node = partitionName partition
  owned : ∀ group topic partition client, ledger.owner group topic partition = some client →
    ledger.subscribed group topic = true

theorem records_empty (root : List NodeName) : Records root {} {} := by
  constructor
  case named =>
    intro key hkey
    simp at hkey
  all_goals simp

/-! ## Events

An event creates or removes one node. Of the other nodes, those matter whose names begin as its
names do: creating it touches the shorter of them, and removing it takes away the longer.
-/

variable {root : List NodeName} {registry : RegistryState} {ledger : Ledger}

theorem Records.own (hrecords : Records root registry ledger) (group topic : NodeName)
    (partition : Int32) (client : String) :
    Records root (((Event.own group topic partition client).edit root).apply registry)
      (ledger.record (.own group topic partition client)) := by
  have hedit : ((Event.own group topic partition client).edit root).apply registry =
      registry.create (down (root ++ [consumersName, group, ownersName, topic,
        partitionName partition])) (Text.encodeUtf8 client) := by
    rw [← owner_down]
    rfl
  rw [hedit]
  constructor
  case working => exact hrecords.working
  case named => exact hrecords.named.create_down _ _
  case groups =>
    rw [RegistryState.mem_create_down]
    simp [Ledger.record]
  case owners =>
    intro g t
    rw [RegistryState.mem_create_down, hrecords.owners]
    simp [Ledger.record]
  case owner =>
    intro g t p
    rw [RegistryState.getElem?_create_down, hrecords.owner]
    simp only [Ledger.record]
    by_cases hsame : g = group ∧ t = topic ∧ p = partition
    · obtain ⟨rfl, rfl, rfl⟩ := hsame
      simp
    · simp [hsame, partitionName_inj]
  case partitions =>
    intro g t node hnode
    rw [RegistryState.mem_create_down] at hnode
    rcases hnode with hsame | habove | hold
    · simp only [List.append_cancel_left_eq, List.cons.injEq] at hsame
      exact ⟨partition, hsame.2.2.2.2.1⟩
    · have hsame : g = group ∧ t = topic ∧ node = partitionName partition := by
        simpa using habove
      exact ⟨partition, hsame.2.2⟩
    · exact hrecords.partitions g t node hold
  case owned =>
    intro g t p c howner
    simp only [Ledger.record] at howner ⊢
    split at howner
    next hsame => simp [hsame]
    next => simp [hrecords.owned g t p c howner]

theorem Records.register (hrecords : Records root registry ledger) (group : NodeName) :
    Records root (((Event.register group).edit root).apply registry)
      (ledger.record (.register group)) := by
  have hedit : ((Event.register group).edit root).apply registry =
      registry.create (down (root ++ [consumersName, group])) [] := by
    rw [← group_down]
    rfl
  rw [hedit]
  constructor
  case working => exact hrecords.working
  case named => exact hrecords.named.create_down _ _
  case groups =>
    rw [RegistryState.mem_create_down]
    simp [Ledger.record]
  case owners =>
    intro g t
    rw [RegistryState.mem_create_down, hrecords.owners]
    simp [Ledger.record]
  case owner =>
    intro g t p
    rw [RegistryState.getElem?_create_down, hrecords.owner]
    simp [Ledger.record]
  case partitions =>
    intro g t node hnode
    rw [RegistryState.mem_create_down] at hnode
    exact hrecords.partitions g t node (by simpa using hnode)
  case owned => exact hrecords.owned

theorem Records.release (hrecords : Records root registry ledger) (group topic : NodeName)
    (partition : Int32) :
    Records root (((Event.release group topic partition).edit root).apply registry)
      (ledger.record (.release group topic partition)) := by
  have hedit : ((Event.release group topic partition).edit root).apply registry =
      registry.remove (down (root ++ [consumersName, group, ownersName, topic,
        partitionName partition])) := by
    rw [← owner_down]
    rfl
  rw [hedit]
  constructor
  case working => exact hrecords.working
  case named => exact hrecords.named.remove _
  case groups =>
    rw [RegistryState.mem_remove_down, hrecords.groups]
    simp [Ledger.record]
  case owners =>
    intro g t
    rw [RegistryState.mem_remove_down, hrecords.owners]
    simp [Ledger.record]
  case owner =>
    intro g t p
    rw [RegistryState.getElem?_remove_down, hrecords.owner]
    simp only [Ledger.record]
    by_cases hsame : g = group ∧ t = topic ∧ p = partition
    · obtain ⟨rfl, rfl, rfl⟩ := hsame
      simp
    · have hother : ¬(group = g ∧ topic = t ∧ partition = p) :=
        fun h => hsame ⟨h.1.symm, h.2.1.symm, h.2.2.symm⟩
      simp [hsame, hother, partitionName_inj]
  case partitions =>
    intro g t node hnode
    exact hrecords.partitions g t node (RegistryState.mem_remove_down.mp hnode).2
  case owned =>
    intro g t p c howner
    simp only [Ledger.record] at howner ⊢
    split at howner
    next hsame => cases howner
    next => exact hrecords.owned g t p c howner

theorem Records.dissolve (hrecords : Records root registry ledger) (group : NodeName) :
    Records root (((Event.dissolve group).edit root).apply registry)
      (ledger.record (.dissolve group)) := by
  have hedit : ((Event.dissolve group).edit root).apply registry =
      registry.remove (down (root ++ [consumersName, group])) := by
    rw [← group_down]
    rfl
  rw [hedit]
  constructor
  case working => exact hrecords.working
  case named => exact hrecords.named.remove _
  case groups =>
    rw [RegistryState.mem_remove_down, hrecords.groups]
    simp [Ledger.record]
  case owners =>
    intro g t
    rw [RegistryState.mem_remove_down, hrecords.owners]
    simp [Ledger.record, eq_comm (a := group)]
  case owner =>
    intro g t p
    rw [RegistryState.getElem?_remove_down, hrecords.owner]
    simp only [Ledger.record]
    by_cases hsame : g = group
    · subst hsame
      simp
    · simp [hsame, Ne.symm hsame]
  case partitions =>
    intro g t node hnode
    exact hrecords.partitions g t node (RegistryState.mem_remove_down.mp hnode).2
  case owned =>
    intro g t p c howner
    simp only [Ledger.record] at howner ⊢
    split at howner
    next hsame => cases howner
    next hother => simp [hother, hrecords.owned g t p c howner]

theorem Records.apply (hrecords : Records root registry ledger) (event : Event) :
    Records root ((event.edit root).apply registry) (ledger.record event) := by
  cases event with
  | own group topic partition client => exact hrecords.own group topic partition client
  | register group => exact hrecords.register group
  | release group topic partition => exact hrecords.release group topic partition
  | dissolve group => exact hrecords.dissolve group

/-- The registry of a history keeps what the ledger of the history says. -/
theorem records_of (root : List NodeName) (history : List Event) :
    Records root (registryOf root history) (Ledger.of history) := by
  suffices hfrom : ∀ registry ledger, Records root registry ledger →
      Records root ((history.map (Event.edit root)).foldl RegistryEdit.apply registry)
        (history.foldl Ledger.record ledger) from hfrom {} {} (records_empty root)
  induction history with
  | nil => exact fun registry ledger hrecords => hrecords
  | cons event rest ih => exact fun registry ledger hrecords => ih _ _ (hrecords.apply event)

/-- A ledger is opened by the first event that creates a node, and stays open. -/
theorem opened_of (history : List Event) :
    (Ledger.of history).opened = history.any Event.creates := by
  suffices hfrom : ∀ ledger : Ledger, (history.foldl Ledger.record ledger).opened =
      (ledger.opened || history.any Event.creates) from hfrom {}
  induction history with
  | nil => simp
  | cons event rest ih =>
      intro ledger
      rw [List.foldl_cons, ih, List.any_cons, ← Bool.or_assoc]
      cases event <;> simp [Ledger.record, Event.creates]

/-! ## Scans -/

/-- What a ledger makes of the scan of one group: there is an ownership exactly if the group
consumes the topic, and then it lists the owners. -/
def Ledger.Explains (ledger : Ledger) (group topic : NodeName) :
    Except Failure Ownership → Prop
  | .ok ownership =>
    ledger.subscribed group topic = true ∧
      ownership.Lists fun client partition => ledger.owner group topic partition = some client
  | .error failure => ledger.subscribed group topic = false ∧ failure.isNotFound = true

/-- What a ledger makes of the scan of all groups: it fails exactly if nothing has ever been
created, and otherwise it holds the scans of the groups in which something is owned. -/
def Ledger.ExplainsAll (ledger : Ledger) (topic : NodeName)
    (single : NodeName → Except Failure Ownership) : Except Failure GroupOwnership → Prop
  | .ok found =>
    ledger.opened = true ∧ ∀ name ownership, found[name]? = some ownership ↔
      ∃ group : NodeName, group.text = name ∧
        (∃ partition client, ledger.owner group topic partition = some client) ∧
        single group = .ok ownership
  | .error failure => ledger.opened = false ∧ failure.reason = .protocol

/-- What a tree replies. -/
abbrev repliesOf (registry : RegistryState) : Canned.RegistryReplies :=
  ⟨registry.children, registry.read⟩

section Scans

variable {group topic : NodeName}

/-- The names of the owners' nodes are the partitions that have an owner. -/
theorem Records.mem_nodes (hrecords : Records root registry ledger) {nodes : List String}
    (hnodes : registry.children (NodePath.owners (down root) group.text topic.text) = .ok nodes)
    {node : String} :
    node ∈ nodes ↔ ∃ partition client, toString partition = node ∧
      ledger.owner group topic partition = some client := by
  rw [owners_down] at hnodes
  rw [hrecords.named.mem_children_down hnodes]
  simp only [List.append_assoc, List.cons_append, List.nil_append]
  constructor
  · rintro ⟨last, rfl, hmem⟩
    obtain ⟨partition, rfl⟩ := hrecords.partitions group topic last hmem
    rw [Std.ExtTreeMap.mem_iff_isSome_getElem?, hrecords.owner, Option.isSome_map] at hmem
    obtain ⟨client, hclient⟩ := Option.isSome_iff_exists.mp hmem
    exact ⟨partition, client, rfl, hclient⟩
  · rintro ⟨partition, client, rfl, hclient⟩
    refine ⟨partitionName partition, rfl, ?_⟩
    rw [Std.ExtTreeMap.mem_iff_isSome_getElem?, hrecords.owner, hclient]
    rfl

/-- The node of an owner makes the claim that the ledger knows. -/
theorem Records.claimAt_owner (hrecords : Records root registry ledger) {partition : Int32}
    {client : String} (hclient : ledger.owner group topic partition = some client) :
    claimAt (repliesOf registry) (down root) group.text topic.text
      (toString partition) = .ok (client, partition) := by
  have hread : registry.read (NodePath.owner (down root) group.text topic.text
      (toString partition)) = .ok (Text.encodeUtf8 client) := by
    apply RegistryState.answer_eq_ok.mpr
    refine ⟨by simp [hrecords.working], Text.encodeUtf8 client, ?_, rfl⟩
    change registry.nodes[NodePath.owner _ _ _ (partitionName partition).text]? = _
    rw [owner_down, hrecords.owner, hclient, Option.map_some]
  have hpartition : partitionOfNode (toString partition) = .ok partition := by
    rw [partitionOfNode, Text.readInt32?_toString]
  unfold claimAt
  rw [hpartition]
  change Except.mapError _ (registry.read _) >>= _ = _
  rw [hread]
  change Except.ok (Text.decodeUtf8 (Text.encodeUtf8 client), partition) = _
  rw [Text.decodeUtf8_encodeUtf8]

/-- The claims at the nodes of the owners are the owners. -/
theorem Records.exists_claims (hrecords : Records root registry ledger) {nodes : List String}
    (hnodes : registry.children (NodePath.owners (down root) group.text topic.text) = .ok nodes) :
    ∃ claims : List (String × Int32),
      nodes.map (claimAt (repliesOf registry) (down root) group.text topic.text) =
        claims.map .ok ∧
      ∀ client partition, (client, partition) ∈ claims ↔
        ledger.owner group topic partition = some client := by
  have hclaim : ∀ node ∈ nodes, ∃ claim,
      claimAt (repliesOf registry) (down root) group.text topic.text node = .ok claim := by
    intro node hnode
    obtain ⟨partition, client, rfl, hclient⟩ := (hrecords.mem_nodes hnodes).mp hnode
    exact ⟨_, hrecords.claimAt_owner hclient⟩
  obtain ⟨claims, hclaims⟩ := Results.exists_successes hclaim
  refine ⟨claims, hclaims, fun client partition => ⟨fun hmem => ?_, fun hclient => ?_⟩⟩
  · have hmade : Except.ok (client, partition) ∈
        nodes.map (claimAt (repliesOf registry) (down root) group.text topic.text) := by
      rw [hclaims]
      exact List.mem_map_of_mem hmem
    obtain ⟨node, hnode, hsame⟩ := List.mem_map.mp hmade
    obtain ⟨other, owner, rfl, howner⟩ := (hrecords.mem_nodes hnodes).mp hnode
    rw [hrecords.claimAt_owner howner] at hsame
    cases hsame
    exact howner
  · have hnode : toString partition ∈ nodes :=
      (hrecords.mem_nodes hnodes).mpr ⟨partition, client, rfl, hclient⟩
    obtain ⟨claim, hmem, hsame⟩ := Results.mem_of_successes hclaims hnode
    rw [hrecords.claimAt_owner hclient] at hsame
    cases hsame
    exact hmem

/-- The scan of one group comes to what the ledger says. -/
theorem Records.explains (hrecords : Records root registry ledger) (group topic : NodeName) :
    ledger.Explains group topic
      (scanOf (repliesOf registry) (down root) group.text topic.text) := by
  have hplace := hrecords.owners group topic
  rw [← owners_down] at hplace
  rcases RegistryState.children_cases hrecords.working
    (NodePath.owners (down root) group.text topic.text) with
    ⟨hthere, nodes, hnodes⟩ | ⟨hgone, habsent⟩
  · obtain ⟨claims, hclaims, howners⟩ := hrecords.exists_claims hnodes
    rw [scanOf_eq_ok.mpr ⟨nodes, claims, hnodes, hclaims, rfl⟩]
    exact ⟨hplace.mp hthere, (lists_ofClaims claims).congr howners⟩
  · rw [scanOf_of_absent habsent]
    exact ⟨Bool.eq_false_iff.mpr fun hsubscribed => hgone (hplace.mpr hsubscribed), rfl⟩

/-- The scan of all groups comes to what the ledger says. -/
theorem Records.explainsAll (hrecords : Records root registry ledger) (hrooted : registry.Rooted)
    (topic : NodeName) :
    ledger.ExplainsAll topic
      (fun group => scanOf (repliesOf registry) (down root) group.text topic.text)
      (scanGroupsOf (repliesOf registry) (down root) topic.text) := by
  have hplace := hrecords.groups
  rw [← groups_down] at hplace
  rcases RegistryState.children_cases hrecords.working (NodePath.groups (down root)) with
    ⟨hthere, listed, hlisted⟩ | ⟨hgone, habsent⟩
  · have hnamed : ∀ name ∈ listed, ∃ group : NodeName, group.text = name := by
      intro name hname
      rw [groups_down] at hlisted
      obtain ⟨group, hgroup, -⟩ := (hrecords.named.mem_children_down hlisted).mp hname
      exact ⟨group, hgroup⟩
    obtain ⟨made, hgathered, -⟩ := gathered_scanGroupsOf (repliesOf registry) topic.text
      hlisted
    generalize scanGroupsOf (repliesOf registry) (down root) topic.text = result at hgathered
    cases hgathered with
    | stopped hgroups hgoesOn hfailure hkind hreason hmessage =>
        -- No group stops the scan, since a group without owners is not found.
        obtain ⟨group, rfl⟩ := hnamed _ (hgroups ▸ List.mem_append_right _ List.mem_cons_self)
        have hexplains := hrecords.explains group topic
        rw [hfailure] at hexplains
        exact absurd hexplains.2 (Bool.eq_false_iff.mp hkind)
    | finished hgoesOn hcollects =>
        refine ⟨hplace.mp hthere, fun name ownership => (hcollects name ownership).trans ?_⟩
        constructor
        · rintro ⟨hname, hsingle, howned⟩
          obtain ⟨group, rfl⟩ := hnamed name hname
          have hexplains := hrecords.explains group topic
          rw [hsingle] at hexplains
          obtain ⟨client, partition, howner⟩ := hexplains.2.isEmpty_eq_false_iff.mp howned
          exact ⟨group, rfl, ⟨partition, client, howner⟩, hsingle⟩
        · rintro ⟨group, rfl, ⟨partition, client, howner⟩, hsingle⟩
          dsimp only at hsingle
          have hexplains := hrecords.explains group topic
          rw [hsingle] at hexplains
          have howned := hexplains.2.isEmpty_eq_false_iff.mpr ⟨client, partition, howner⟩
          obtain ⟨nodes, node, hnodes, hnode⟩ := exists_node_of_owned hsingle howned
          exact ⟨group_mem_children hrooted hlisted hnodes hnode, hsingle, howned⟩
  · rw [scanGroupsOf_of_fault (repliesOf registry) topic.text habsent]
    exact ⟨Bool.eq_false_iff.mpr fun hopened => hgone (hplace.mpr hopened), rfl⟩

end Scans

/-- After any history, the scans of the registry come to what the ledger of the history says. -/
theorem scans_of_history (root : List NodeName) (history : List Event) (world : World) :
    let ledger := Ledger.of history
    let reached := { world with registry := registryOf root history }
    let single := fun group topic : NodeName =>
      ((scan World.registryView (down root) group.text topic.text).runFrom reached).1
    (∀ group topic, ledger.Explains group topic (single group topic)) ∧
      (∀ topic : NodeName, ledger.ExplainsAll topic (single · topic)
        ((scanGroups World.registryView (down root) topic.text).runFrom reached).1) ∧
      ledger.opened = history.any Event.creates := by
  intro ledger reached single
  have hrecords := records_of root history
  have hsteady := World.steady_registryView reached
  have hsingle : ∀ group topic, single group topic =
      scanOf (repliesOf (registryOf root history)) (down root) group.text topic.text :=
    fun group topic => ((told_scan _ _ _ _).of_steady hsteady).1
  refine ⟨fun group topic => ?_, fun topic => ?_, opened_of history⟩
  · rw [hsingle]
    exact hrecords.explains group topic
  · rw [((told_scanGroups _ (down root) topic.text).of_steady hsteady).1]
    simp only [hsingle]
    exact hrecords.explainsAll (RegistryState.rooted_edits _) topic

end ConsumerGroups.Ownership
