import ConsumerGroups.Proofs.Ownership.Scan
import ConsumerGroups.Proofs.Simulated.Tree
import ConsumerGroups.Simulated.World

/-! # The scan of all groups against the scans of each

Over a registry that does not change, the scan of all groups fails where the first listed group
fails for good, and otherwise it collects what the groups own. The simulated registry lists every
group that owns anything, so there the collection is complete.
-/

namespace ConsumerGroups

open Simulated NodePath

/-! ## The simulated registry -/

/-- Asking the simulated registry changes nothing in the world. -/
theorem Simulated.World.steady_registryView (world : World) :
    World.registryView.Steady world := by
  intro state hasked
  have hsame : state = world := by
    induction hasked with
    | start => rfl
    | children hasked path ih => exact ih
    | read hasked path ih => exact ih
  rw [hsame]

namespace Ownership

/-! ## Single scans -/

/-- A group that owns anything has a node for it. -/
theorem exists_node_of_owned {replies : Canned.RegistryReplies} {chroot group topic : String}
    {ownership : Ownership} (hscan : scanOf replies chroot group topic = .ok ownership)
    (howned : ownership.isEmpty = false) :
    ∃ nodes node, replies.children (NodePath.owners chroot group topic) = .ok nodes ∧
      node ∈ nodes := by
  obtain ⟨nodes, claims, hnodes, hclaims, rfl⟩ := scanOf_eq_ok.mp hscan
  cases nodes with
  | nil =>
      rw [List.map_eq_nil_iff.mp hclaims.symm] at howned
      cases howned
  | cons node rest => exact ⟨_, node, hnodes, List.mem_cons_self⟩

/-! ## Agreement -/

/-- Over a registry that does not change, the groups gathered are those of the single scans. -/
theorem scanGroups_gathered {σ : Type} {registry : Registry σ} {start : σ}
    (hsteady : registry.Steady start) {chroot : String} (topic : String) {groups : List String}
    (hlisting : ((registry.children (NodePath.groups chroot)).run start).1 = .ok groups) :
    ∃ made,
      Gathered (fun group => ((scan registry chroot group topic).runFrom start).1)
        (fun group => ((scan registry.recorded chroot group topic).runFrom ⟨start, []⟩).2.log)
        groups ((scanGroups registry chroot topic).runFrom start).1 made ∧
      ((scanGroups registry.recorded chroot topic).runFrom ⟨start, []⟩).2.log =
        .children (NodePath.groups chroot) (.ok groups) :: made := by
  have hsingle := fun group => (told_scan _ chroot group topic).of_steady hsteady
  obtain ⟨hresult, hlog⟩ := (told_scanGroups _ chroot topic).of_steady hsteady
  rw [hresult, hlog]
  simp only [fun group => (hsingle group).1, fun group => (hsingle group).2]
  exact gathered_scanGroupsOf _ topic hlisting

/-- In a rooted tree, a group with a node for an owner is listed. -/
theorem group_mem_children {registry : RegistryState} (hrooted : registry.Rooted)
    {root : List NodeName} {group : NodeName} {topic node : String} {listed nodes : List String}
    (hlisted : registry.children (NodePath.groups (down root)) = .ok listed)
    (hnodes : registry.children (owners (down root) group.text topic) = .ok nodes)
    (hnode : node ∈ nodes) : group.text ∈ listed := by
  obtain ⟨hmem, -⟩ := (RegistryState.mem_children hnodes).mp hnode
  have hslashes : "/owners/" = "/" ++ ownersName.text ++ "/" := rfl
  have hpath : owners (down root) group.text topic ++ "/" ++ node =
      down (root ++ [consumersName, group]) ++ "/" ++
        (ownersName.text ++ "/" ++ (topic ++ "/" ++ node)) := by
    rw [owners, group_down, hslashes]
    simp only [String.append_assoc]
  rw [hpath] at hmem
  rw [RegistryState.mem_children hlisted]
  refine ⟨?_, group.slashFree⟩
  change NodePath.group (down root) group.text ∈ registry.nodes
  rw [group_down]
  apply hrooted _ _ (by simp) ?_ hmem
  rw [segments_append, segments_name]
  simp

/-- In a rooted tree, the scan of all groups leaves out none that owns anything. -/
theorem scanGroups_complete {world : World} (hrooted : world.registry.Rooted)
    {root : List NodeName} {topic : String} {found : GroupOwnership}
    (hfound : ((scanGroups World.registryView (down root) topic).runFrom world).1 = .ok found)
    {group : NodeName} {ownership : Ownership}
    (hscan : ((scan World.registryView (down root) group.text topic).runFrom world).1 =
      .ok ownership)
    (howned : ownership.isEmpty = false) : found[group.text]? = some ownership := by
  have hsteady := World.steady_registryView world
  have hsingle := ((told_scan _ (down root) group.text topic).of_steady hsteady).1
  rw [hscan] at hsingle
  obtain ⟨nodes, node, hnodes, hnode⟩ := exists_node_of_owned hsingle.symm howned
  cases hlisted : world.registry.children (NodePath.groups (down root)) with
  | error fault =>
      have hresult := ((told_scanGroups _ (down root) topic).of_steady hsteady).1
      rw [hfound, scanGroupsOf_of_fault _ topic hlisted] at hresult
      cases hresult
  | ok listed =>
      obtain ⟨made, hgathered, -⟩ := scanGroups_gathered hsteady topic hlisted
      rw [hfound] at hgathered
      cases hgathered with
      | finished hgoesOn hcollects =>
          have hgroup : group.text ∈ listed := group_mem_children hrooted hlisted hnodes hnode
          exact (hcollects group.text ownership).mpr ⟨hgroup, hscan, howned⟩

/-- Over any registry that does not change, the scan of all groups gathers what the single scans
come to and reads no group after the first that fails for good. In a registry made by edits, it
leaves out no group that owns anything. -/
theorem scanGroups_agrees :
    (∀ {σ : Type} (registry : Registry σ) (start : σ), registry.Steady start →
      ∀ (chroot topic : String) (groups : List String),
        ((registry.children (NodePath.groups chroot)).run start).1 = .ok groups →
        ∃ made,
          Gathered (fun group => ((scan registry chroot group topic).runFrom start).1)
            (fun group =>
              ((scan registry.recorded chroot group topic).runFrom ⟨start, []⟩).2.log)
            groups ((scanGroups registry chroot topic).runFrom start).1 made ∧
          ((scanGroups registry.recorded chroot topic).runFrom ⟨start, []⟩).2.log =
            .children (NodePath.groups chroot) (.ok groups) :: made) ∧
    ∀ (edits : List RegistryEdit) (world : World),
      world.registry = edits.foldl RegistryEdit.apply {} →
      ∀ (root : List NodeName) (topic : String) (found : GroupOwnership),
        ((scanGroups World.registryView (down root) topic).runFrom world).1 = .ok found →
        ∀ (group : NodeName) (ownership : Ownership),
          ((scan World.registryView (down root) group.text topic).runFrom world).1 =
            .ok ownership →
          ownership.isEmpty = false → found[group.text]? = some ownership := by
  constructor
  · intro σ registry start hsteady chroot topic groups hlisting
    exact scanGroups_gathered hsteady topic hlisting
  · intro edits world hworld root topic found hfound group ownership hscan howned
    have hrooted : world.registry.Rooted := hworld ▸ RegistryState.rooted_edits edits
    exact scanGroups_complete hrooted hfound hscan howned

/-- A group that owns a partition is found, and one that only registered is passed over. -/
theorem scanGroups_agrees_on_two_groups :
    let edits : List RegistryEdit := [.recordGroup "" "h", .recordOwner "" "g" "t" "4" "c"]
    let world : World := { registry := edits.foldl RegistryEdit.apply {} }
    let found : GroupOwnership := Std.ExtTreeMap.insert ∅ "g" (ofClaims [("c", 4)])
    ((scanGroups World.registryView "" "t").runFrom world).1 = .ok found ∧
      (∃ made,
        Gathered (fun group => ((scan World.registryView "" group "t").runFrom world).1)
          (fun group =>
            ((scan World.registryView.recorded "" group "t").runFrom ⟨world, []⟩).2.log)
          ["g", "h"] (.ok found) made) ∧
      found["g"]? = some (ofClaims [("c", 4)]) := by
  intro edits world found
  have hlisting : ((World.registryView.children (NodePath.groups "")).run world).1 =
      .ok ["g", "h"] := by rfl
  have hfound : ((scanGroups World.registryView "" "t").runFrom world).1 = .ok found := by rfl
  have hscan : ((scan World.registryView "" "g" "t").runFrom world).1 =
      .ok (ofClaims [("c", 4)]) := by rfl
  obtain ⟨made, hgathered, -⟩ := scanGroups_agrees.1 World.registryView world
    (World.steady_registryView world) "" "t" ["g", "h"] hlisting
  rw [hfound] at hgathered
  refine ⟨hfound, ⟨made, hgathered⟩, ?_⟩
  exact scanGroups_agrees.2 edits world rfl [] "t" found hfound ⟨"g", by decide, by decide⟩
    (ofClaims [("c", 4)]) hscan (by rfl)

end Ownership

end ConsumerGroups
