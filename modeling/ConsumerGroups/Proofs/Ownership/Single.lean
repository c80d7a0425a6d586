import Mathlib.Data.List.Dedup
import ConsumerGroups.Proofs.Ownership.Course
import ConsumerGroups.Proofs.Simulated.Chronicle
import ConsumerGroups.Proofs.Text.Decimal
import ConsumerGroups.Simulated.World

/-! # One owner for each partition

The nodes of the owners have different names, but different names may spell the same partition.
Two spellings with one client are one claim; two spellings with different clients give the
partition two owners. Where every partition is spelled once, it has one owner, and as many
partitions are listed as there are nodes.
-/

namespace ConsumerGroups

variable {σ : Type}

/-- No listing of the registry has a name twice. -/
def Registry.ListsDistinct (registry : Registry σ) : Prop :=
  ∀ path state names next, (registry.children path).run state = (.ok names, next) → names.Nodup

/-- The names of a listing of the simulated registry ascend. -/
theorem Simulated.World.registryView_listsDistinct :
    Simulated.World.registryView.ListsDistinct := by
  intro path world names next hlisting
  have hchildren : world.registry.children path = .ok names := congrArg Prod.fst hlisting
  have hascending := Simulated.RegistryState.ascending_children hchildren
  have hnodup : (names.map Text.encodeUtf8).Nodup := by
    refine hascending.imp fun {first second} hlt hsame => ?_
    rw [hsame] at hlt
    exact List.lt_irrefl second hlt
  exact hnodup.of_map

namespace Ownership

/-! ## Partitions with their owners -/

/-- No partition is listed under two clients. -/
def Single (ownership : Ownership) : Prop :=
  ∀ (client other : String) owned others, ownership[client]? = some owned →
    ownership[other]? = some others → ∀ partition ∈ owned, partition ∈ others → client = other

/-- How many partitions are listed under all clients together. -/
def count (ownership : Ownership) : Nat :=
  (ownership.toList.map fun entry => entry.2.length).sum

/-- What is listed, as single claims. -/
def pairs (ownership : Ownership) : List (String × Int32) :=
  ownership.toList.flatMap fun entry => entry.2.map (entry.1, ·)

section Pairs

variable {ownership : Ownership} {nodes : List ReadNode}

theorem length_pairs (ownership : Ownership) : ownership.pairs.length = ownership.count := by
  simp [pairs, count, List.length_flatMap]

theorem mem_pairs {client : String} {partition : Int32} :
    (client, partition) ∈ ownership.pairs ↔
      ∃ owned, ownership[client]? = some owned ∧ partition ∈ owned := by
  simp [pairs, Std.ExtTreeMap.mem_toList_iff_getElem?_eq_some]

theorem single_iff_pairs :
    ownership.Single ↔ ∀ first ∈ ownership.pairs, ∀ second ∈ ownership.pairs,
      first.2 = second.2 → first.1 = second.1 := by
  constructor
  · rintro hsingle ⟨client, partition⟩ hfirst ⟨other, _⟩ hsecond rfl
    obtain ⟨owned, howned, hmem⟩ := mem_pairs.mp hfirst
    obtain ⟨others, hothers, hmem'⟩ := mem_pairs.mp hsecond
    exact hsingle client other owned others howned hothers partition hmem hmem'
  · intro hpairs client other owned others howned hothers partition hmem hmem'
    exact hpairs (client, partition) (mem_pairs.mpr ⟨owned, howned, hmem⟩)
      (other, partition) (mem_pairs.mpr ⟨others, hothers, hmem'⟩) rfl

/-- An ownership lists the claims that its nodes make. -/
theorem Holds.mem_pairs (hholds : ownership.Holds nodes) (claim : String × Int32) :
    claim ∈ ownership.pairs ↔ claim ∈ claimsOf nodes := by
  obtain ⟨client, partition⟩ := claim
  rw [Ownership.mem_pairs, mem_claimsOf]
  constructor
  · rintro ⟨owned, howned, hpartition⟩
    exact ((hholds.partitions client owned howned).2.2 partition).mp hpartition
  · rintro ⟨node, hnode, hclient, hpartition⟩
    have hmem : client ∈ ownership :=
      (hholds.clients client).mpr (List.mem_map.mpr ⟨node, hnode, hclient⟩)
    obtain ⟨owned, howned⟩ := Option.isSome_iff_exists.mp
      (Std.ExtTreeMap.mem_iff_isSome_getElem?.mp hmem)
    have hmem := ((hholds.partitions client owned howned).2.2 partition).mpr
      ⟨node, hnode, hclient, hpartition⟩
    exact ⟨owned, howned, hmem⟩

theorem Holds.nodup_pairs (hholds : ownership.Holds nodes) : ownership.pairs.Nodup := by
  refine List.nodup_flatMap.mpr ⟨?_, ?_⟩
  · rintro ⟨client, owned⟩ hentry
    have howned := Std.ExtTreeMap.mem_toList_iff_getElem?_eq_some.mp hentry
    have hascending := (hholds.partitions client owned howned).2.1
    exact (hascending.imp Int32.ne_of_lt).map _ (by simp)
  · refine Std.ExtTreeMap.distinct_keys_toList.imp ?_
    intro first second hkeys
    rw [Function.onFun, List.disjoint_left]
    intro claim hfirst hsecond
    obtain ⟨_, -, rfl⟩ := List.mem_map.mp hfirst
    obtain ⟨_, -, hclaim⟩ := List.mem_map.mp hsecond
    have hclients : second.1 = first.1 := (Prod.mk.inj hclaim).1
    exact hkeys (Std.compare_eq_iff_eq.mpr hclients.symm)

/-- The claims of the nodes are listed, each of them once. -/
theorem Holds.pairs_perm (hholds : ownership.Holds nodes) :
    ownership.pairs.Perm (claimsOf nodes).dedup := by
  refine (List.perm_ext_iff_of_nodup hholds.nodup_pairs (List.nodup_dedup _)).mpr fun claim => ?_
  rw [List.mem_dedup, hholds.mem_pairs]

theorem Holds.single_iff (hholds : ownership.Holds nodes) :
    ownership.Single ↔ ∀ first ∈ claimsOf nodes, ∀ second ∈ claimsOf nodes,
      first.2 = second.2 → first.1 = second.1 := by
  simp only [single_iff_pairs, hholds.mem_pairs]

/-- As many partitions are listed as there are claims exactly if no claim is made twice. -/
theorem Holds.count_eq_iff (hholds : ownership.Holds nodes) :
    ownership.count = (claimsOf nodes).length ↔ (claimsOf nodes).Nodup := by
  rw [← length_pairs, hholds.pairs_perm.length_eq, ← List.dedup_eq_self]
  exact ⟨(List.dedup_sublist _).eq_of_length, congrArg List.length⟩

end Pairs

/-! ## Nodes -/

section Nodes

variable {ownership : Ownership} {nodes : List ReadNode}

/-- Nodes whose names are partitions make a claim each. -/
theorem claimsOf_partitions
    (hnames : ∀ node ∈ nodes, ∃ partition, node.partition? = some partition) :
    (claimsOf nodes).map (some ·.2) = nodes.map ReadNode.partition? := by
  induction nodes with
  | nil => rfl
  | cons node rest ih =>
      obtain ⟨⟨partition, hpartition⟩, hrest⟩ := List.forall_mem_cons.mp hnames
      have hclaims : claimsOf (node :: rest) = (node.client, partition) :: claimsOf rest := by
        simp [claimsOf, hpartition]
      rw [hclaims, List.map_cons, ih hrest, List.map_cons, hpartition]

theorem length_claimsOf (hnames : ∀ node ∈ nodes, ∃ partition, node.partition? = some partition) :
    (claimsOf nodes).length = nodes.length := by
  rw [← List.length_map (some ·.2), claimsOf_partitions hnames, List.length_map]

/-- Every partition has one owner exactly if nodes that spell the same partition name the same
client. -/
theorem Holds.single_iff_nodes (hholds : ownership.Holds nodes)
    (hnames : ∀ node ∈ nodes, ∃ partition, node.partition? = some partition) :
    ownership.Single ↔ ∀ first ∈ nodes, ∀ second ∈ nodes,
      first.partition? = second.partition? → first.client = second.client := by
  rw [hholds.single_iff]
  constructor
  · intro hclaims first hfirst second hsecond hsame
    obtain ⟨partition, hpartition⟩ := hnames first hfirst
    exact hclaims (first.client, partition) (mem_claimsOf.mpr ⟨first, hfirst, rfl, hpartition⟩)
      (second.client, partition) (mem_claimsOf.mpr ⟨second, hsecond, rfl, hsame ▸ hpartition⟩) rfl
  · rintro hnodes ⟨_, partition⟩ hclaim ⟨_, _⟩ hother rfl
    obtain ⟨first, hfirst, rfl, hpartition⟩ := mem_claimsOf.mp hclaim
    obtain ⟨second, hsecond, rfl, hpartition'⟩ := mem_claimsOf.mp hother
    exact hnodes first hfirst second hsecond (hpartition.trans hpartition'.symm)

/-- Every partition has one owner and is listed once for each node exactly if no two names spell the
same partition. -/
theorem Holds.single_and_count_iff (hholds : ownership.Holds nodes)
    (hnames : ∀ node ∈ nodes, ∃ partition, node.partition? = some partition) :
    ownership.Single ∧ ownership.count = nodes.length ↔ (nodes.map ReadNode.partition?).Nodup := by
  rw [hholds.single_iff, ← length_claimsOf hnames, hholds.count_eq_iff,
    ← claimsOf_partitions hnames]
  constructor
  · rintro ⟨hsingle, hnodup⟩
    refine (List.nodup_map_iff_inj_on hnodup).mpr fun first hfirst second hsecond hsame => ?_
    have hpartitions : first.2 = second.2 := Option.some.inj hsame
    exact Prod.ext (hsingle first hfirst second hsecond hpartitions) hpartitions
  · intro hnodup
    refine ⟨fun first hfirst second hsecond hsame => ?_, hnodup.of_map⟩
    rw [List.inj_on_of_nodup_map hnodup hfirst hsecond (congrArg some hsame)]

/-- Different nodes have different partitions exactly if no partition has two spellings. -/
theorem nodup_partitions_iff (hdistinct : (nodes.map (·.1)).Nodup) :
    (nodes.map ReadNode.partition?).Nodup ↔ ∀ first ∈ nodes, ∀ second ∈ nodes,
      first.partition? = second.partition? → first.1 = second.1 := by
  rw [List.nodup_map_iff_inj_on hdistinct.of_map]
  constructor
  · intro hinjective first hfirst second hsecond hsame
    rw [hinjective first hfirst second hsecond hsame]
  · intro hspelled first hfirst second hsecond hsame
    exact List.inj_on_of_nodup_map hdistinct hfirst hsecond
      (hspelled first hfirst second hsecond hsame)

end Nodes

/-! ## Scans -/

variable {registry : Registry σ} {chroot group topic : String} {start reached : σ}
  {ownership : Ownership}

theorem Course.scan_run {result : Except Failure Ownership} {calls : List Exchange}
    (hcourse : Course registry chroot group topic start result reached calls) :
    (scan registry chroot group topic).runFrom start = (result, reached) := by
  have hmirror := mirrors_scan registry chroot group topic ⟨start, []⟩
  have hrun : (scan registry.recorded chroot group topic).run.run ⟨start, []⟩ =
      (result, ⟨reached, calls⟩) := hcourse.run
  rw [hrun, except_map_id] at hmirror
  exact Prod.ext hmirror.1.symm hmirror.2.symm

/-- A scan that succeeds has read all nodes, and comes to what they say. -/
theorem reads_of_scan
    (hscan : (scan registry chroot group topic).runFrom start = (.ok ownership, reached)) :
    ∃ nodes, ReadsAll registry chroot group topic start nodes reached ∧ ownership.Holds nodes := by
  obtain ⟨result, last, calls, hcourse⟩ := exists_course registry chroot group topic start
  rw [hcourse.scan_run] at hscan
  cases hscan
  cases hcourse with
  | complete hnodes hholds => exact ⟨_, hnodes, hholds⟩

/-- In a scan that succeeds, no partition has two owners exactly if nodes whose names spell the same
partition name the same client. As many partitions are listed as there are nodes, with one owner
each, exactly if no two names spell the same partition. That is so where every name is the text of
a number; a plus sign and leading zeros make other spellings. -/
theorem scan_single_iff (hdistinct : registry.ListsDistinct)
    (hscan : (scan registry chroot group topic).runFrom start = (.ok ownership, reached)) :
    ∃ nodes, ReadsAll registry chroot group topic start nodes reached ∧
      (ownership.Single ↔ ∀ first ∈ nodes, ∀ second ∈ nodes,
        first.partition? = second.partition? → first.client = second.client) ∧
      (ownership.Single ∧ ownership.count = nodes.length ↔ ∀ first ∈ nodes, ∀ second ∈ nodes,
        first.partition? = second.partition? → first.1 = second.1) ∧
      ((∀ node ∈ nodes, ∃ partition : Int32, node.1 = toString partition) →
        ownership.Single ∧ ownership.count = nodes.length) := by
  obtain ⟨nodes, hnodes, hholds⟩ := reads_of_scan hscan
  obtain ⟨listed, hlisting, hreads⟩ := id hnodes
  have hspelled : ownership.Single ∧ ownership.count = nodes.length ↔
      ∀ first ∈ nodes, ∀ second ∈ nodes,
        first.partition? = second.partition? → first.1 = second.1 := by
    rw [hholds.single_and_count_iff hreads.names, nodup_partitions_iff (hdistinct _ _ _ _ hlisting)]
  refine ⟨nodes, hnodes, hholds.single_iff_nodes hreads.names, hspelled, fun hcanonical => ?_⟩
  apply hspelled.mpr
  intro first hfirst second hsecond hsame
  obtain ⟨partition, hname⟩ := hcanonical first hfirst
  obtain ⟨other, hother⟩ := hcanonical second hsecond
  rw [ReadNode.partition?, ReadNode.partition?, hname, hother, Text.readInt32?_toString,
    Text.readInt32?_toString] at hsame
  rw [hname, hother, Option.some.inj hsame]

/-- Three nodes with the texts of numbers for names, two of them of one client. -/
theorem scan_single_of_three_nodes :
    let replies : Canned.RegistryReplies :=
      { children := fun _ => .ok ["0", "1", "-2"]
        read := fun path =>
          .ok (Text.encodeUtf8 (if path = NodePath.owner "" "g" "t" "1" then "b" else "a")) }
    ∃ ownership,
      ((scan (replies.registry : Registry Unit) "" "g" "t").runFrom ()).1 = .ok ownership ∧
        ownership.Single ∧ ownership.count = 3 := by
  intro replies
  have hdistinct : (replies.registry : Registry Unit).ListsDistinct := by
    rintro path state names next ⟨⟩
    decide
  have hscan : (scan (replies.registry : Registry Unit) "" "g" "t").runFrom () =
      (.ok (Std.ExtTreeMap.insert (Std.ExtTreeMap.insert ∅ "a" [-2, 0]) "b" [1]), ()) := by rfl
  obtain ⟨nodes, ⟨listed, hlisting, -⟩, -, -, hcanonical⟩ := scan_single_iff hdistinct hscan
  have hnames : nodes.map (·.1) = ["0", "1", "-2"] :=
    (Except.ok.inj (congrArg Prod.fst hlisting)).symm
  refine ⟨_, congrArg Prod.fst hscan, ?_⟩
  have hlength : nodes.length = 3 := by rw [← List.length_map (·.1), hnames]; rfl
  rw [← hlength]
  apply hcanonical
  intro node hnode
  have hname : node.1 ∈ ["0", "1", "-2"] := hnames ▸ List.mem_map_of_mem hnode
  simp only [List.mem_cons, List.not_mem_nil, or_false] at hname
  rcases hname with hname | hname | hname
  · exact ⟨0, hname⟩
  · exact ⟨1, hname⟩
  · exact ⟨-2, hname⟩

open Simulated RegistryState in
/-- Three spellings of one partition, by two clients. -/
theorem scan_with_two_owners :
    let registry := madeBy
      [.recordOwner "" "g" "t" "1" "a", .recordOwner "" "g" "t" "01" "b",
        .recordOwner "" "g" "t" "+1" "a"]
    World.registryView.ListsDistinct ∧
      registry.children (NodePath.owners "" "g" "t") = .ok ["+1", "01", "1"] ∧
      ∃ ownership, ((scan World.registryView "" "g" "t").runFrom { registry }).1 = .ok ownership ∧
        ¬ownership.Single ∧ ownership.count = 2 := by
  intro registry
  let ownership : Ownership := Std.ExtTreeMap.insert (Std.ExtTreeMap.insert ∅ "a" [1]) "b" [1]
  have hscan : ((scan World.registryView "" "g" "t").runFrom { registry }).1 = .ok ownership := by
    rfl
  refine ⟨World.registryView_listsDistinct, by rfl, ownership, hscan, fun hsingle => ?_, by rfl⟩
  have hclients := hsingle "a" "b" [1] [1] (by rfl) (by rfl) 1 (by simp) (by simp)
  exact absurd hclients (by decide)

end Ownership

end ConsumerGroups
