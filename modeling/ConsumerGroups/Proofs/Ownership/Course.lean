import ConsumerGroups.Proofs.Ownership.Scan
import ConsumerGroups.Proofs.Recording

/-! # The course of a scan

A scan lists the nodes of the owners and then looks at them in the order of the listing: at a
node's name first, and at its bytes only if the name is a partition. It ends with the first node
that gives no claim, or else with an ownership that depends on what was read, and not on the order
in which it was read. The registry may change in between.
-/

namespace ConsumerGroups.Ownership

variable {σ τ : Type}

/-! ## What is read -/

/-- A node that was read: its name and the bytes at it. -/
abbrev ReadNode := String × List UInt8

/-- The partition that the name of a node stands for. -/
def ReadNode.partition? (node : ReadNode) : Option Int32 :=
  Text.readInt32? node.1

def ReadNode.client (node : ReadNode) : String :=
  Text.decodeUtf8 node.2

/-- An ownership that holds what some nodes say, and nothing else: its clients are those that were
read, and each has the partitions of its nodes, ascending and without repetition. -/
structure Holds (ownership : Ownership) (nodes : List ReadNode) : Prop where
  clients : ∀ client, client ∈ ownership ↔ client ∈ nodes.map ReadNode.client
  partitions : ∀ (client : String) owned, ownership[client]? = some owned →
    owned ≠ [] ∧ owned.Pairwise (· < ·) ∧
      ∀ partition, partition ∈ owned ↔
        ∃ node ∈ nodes, node.client = client ∧ node.partition? = some partition

/-- The order of the nodes does not matter. -/
theorem Holds.of_perm {ownership : Ownership} {nodes others : List ReadNode}
    (hholds : ownership.Holds nodes) (hperm : nodes.Perm others) : ownership.Holds others where
  clients client := (hholds.clients client).trans (hperm.map ReadNode.client).mem_iff
  partitions client owned howned := by
    obtain ⟨hsome, hascending, hmem⟩ := hholds.partitions client owned howned
    refine ⟨hsome, hascending, fun partition => (hmem partition).trans ?_⟩
    simp only [hperm.mem_iff]

/-- What nodes say makes one ownership only. -/
theorem Holds.unique {first second : Ownership} {nodes : List ReadNode}
    (hfirst : first.Holds nodes) (hsecond : second.Holds nodes) : first = second := by
  apply Std.ExtTreeMap.ext_getElem?
  intro client
  have hsame : client ∈ first ↔ client ∈ second :=
    (hfirst.clients client).trans (hsecond.clients client).symm
  cases howned : first[client]? with
  | none =>
      have hnot : client ∉ second := by
        rw [← hsame, Std.ExtTreeMap.mem_iff_isSome_getElem?, howned]
        exact Bool.false_ne_true
      exact (Std.ExtTreeMap.getElem?_eq_none hnot).symm
  | some owned =>
      obtain ⟨others, hothers⟩ : ∃ others, second[client]? = some others := by
        rw [Std.ExtTreeMap.mem_iff_isSome_getElem?, howned] at hsame
        exact Option.isSome_iff_exists.mp
          (Std.ExtTreeMap.mem_iff_isSome_getElem?.mp (hsame.mp rfl))
      obtain ⟨-, hascending, hmem⟩ := hfirst.partitions client owned howned
      obtain ⟨-, hascending', hmem'⟩ := hsecond.partitions client others hothers
      -- Two ascending lists with the same partitions are the same list.
      have hperm : owned.Perm others :=
        (List.perm_ext_iff_of_nodup (hascending.imp Int32.ne_of_lt)
          (hascending'.imp Int32.ne_of_lt)).mpr fun partition =>
            (hmem partition).trans (hmem' partition).symm
      rw [hothers, hperm.eq_of_pairwise (fun _ _ _ _ hless hmore =>
        absurd hless (Int32.lt_asymm hmore)) hascending hascending']

/-- The claims that nodes make, as far as their names are partitions. -/
def claimsOf (nodes : List ReadNode) : List (String × Int32) :=
  nodes.filterMap fun node => node.partition?.map (node.client, ·)

theorem mem_claimsOf {nodes : List ReadNode} {client : String} {partition : Int32} :
    (client, partition) ∈ claimsOf nodes ↔
      ∃ node ∈ nodes, node.client = client ∧ node.partition? = some partition := by
  simp only [claimsOf, List.mem_filterMap, Option.map_eq_some_iff, Prod.mk.injEq]
  constructor
  · rintro ⟨node, hnode, _, hpartition, hclient, rfl⟩
    exact ⟨node, hnode, hclient, hpartition⟩
  · rintro ⟨node, hnode, hclient, hpartition⟩
    exact ⟨node, hnode, partition, hpartition, hclient, rfl⟩

theorem holds_ofClaims {nodes : List ReadNode}
    (hnames : ∀ node ∈ nodes, ∃ partition, node.partition? = some partition) :
    (ofClaims (claimsOf nodes)).Holds nodes := by
  have hlists := lists_ofClaims (claimsOf nodes)
  simp only [mem_claimsOf] at hlists
  have hclients (client : String) :
      client ∈ ofClaims (claimsOf nodes) ↔ client ∈ nodes.map ReadNode.client := by
    rw [hlists.clients, List.mem_map]
    constructor
    · rintro ⟨partition, node, hnode, hclient, -⟩
      exact ⟨node, hnode, hclient⟩
    · rintro ⟨node, hnode, hclient⟩
      obtain ⟨partition, hpartition⟩ := hnames node hnode
      exact ⟨partition, node, hnode, hclient, hpartition⟩
  refine ⟨hclients, fun client owned howned => ?_⟩
  obtain ⟨hascending, hmem⟩ := hlists.partitions client owned howned
  refine ⟨?_, hascending, hmem⟩
  rintro rfl
  have hclient : client ∈ ofClaims (claimsOf nodes) := by
    rw [Std.ExtTreeMap.mem_iff_isSome_getElem?, howned]
    rfl
  obtain ⟨partition, howns⟩ := (hlists.clients client).mp hclient
  exact absurd ((hmem partition).mpr howns) List.not_mem_nil

/-! ## Reading -/

section Reading

variable (registry : Registry σ) (chroot group topic : String)

/-- Reading some nodes one after another gives these bytes, each node in the state that the one
before it left behind, and every name is a partition. -/
inductive ReadsEach : σ → List ReadNode → σ → Prop
  | nil (state : σ) : ReadsEach state [] state
  | cons {state next last : σ} {node : ReadNode} {rest : List ReadNode} {partition : Int32}
      (hname : node.partition? = some partition)
      (hread : (registry.read (NodePath.owner chroot group topic node.1)).run state =
        (.ok node.2, next))
      (hrest : ReadsEach next rest last) : ReadsEach state (node :: rest) last

/-- The call that read a node. -/
def readCall (node : ReadNode) : Exchange :=
  .read (NodePath.owner chroot group topic node.1) (.ok node.2)

/-- The call that lists the nodes of the owners. -/
def listCall (listing : Except RegistryFault (List String)) : Exchange :=
  .children (NodePath.owners chroot group topic) listing

/-- The nodes of the owners are all listed and read. -/
def ReadsAll (start : σ) (nodes : List ReadNode) (reached : σ) : Prop :=
  ∃ listed, (registry.children (NodePath.owners chroot group topic)).run start =
      (.ok (nodes.map (·.1)), listed) ∧
    ReadsEach registry chroot group topic listed nodes reached

/-- How a scan can end: its result, the state that it leaves behind and the calls that it made.
There is one constructor for each way. -/
inductive Course (start : σ) : Except Failure Ownership → σ → List Exchange → Prop
  | absent {listed : σ}
      (hlisting : (registry.children (NodePath.owners chroot group topic)).run start =
        (.error .absent, listed)) :
      Course start (.error (.notFound .subscriptionAbsent)) listed
        [listCall chroot group topic (.error .absent)]
  | unlisted {listed : σ} {cause : Cause}
      (hlisting : (registry.children (NodePath.owners chroot group topic)).run start =
        (.error (.broken cause), listed)) :
      Course start (.error (.connection .ownersListing cause)) listed
        [listCall chroot group topic (.error (.broken cause))]
  /-- A name that is no partition ends the scan before its node is read. -/
  | misnamed {listed reached : σ} {passed : List ReadNode} {name : String} {later : List String}
      (hlisting : (registry.children (NodePath.owners chroot group topic)).run start =
        (.ok (passed.map (·.1) ++ name :: later), listed))
      (hpassed : ReadsEach registry chroot group topic listed passed reached)
      (hname : Text.readInt32? name = none) :
      Course start (.error (.protocol (.ownerNodeName name))) reached
        (listCall chroot group topic (.ok (passed.map (·.1) ++ name :: later)) ::
          passed.map (readCall chroot group topic))
  /-- A node that cannot be read is the last one that is read. -/
  | unread {listed reached last : σ} {passed : List ReadNode} {name : String}
      {later : List String} {partition : Int32} {fault : RegistryFault}
      (hlisting : (registry.children (NodePath.owners chroot group topic)).run start =
        (.ok (passed.map (·.1) ++ name :: later), listed))
      (hpassed : ReadsEach registry chroot group topic listed passed reached)
      (hname : Text.readInt32? name = some partition)
      (hread : (registry.read (NodePath.owner chroot group topic name)).run reached =
        (.error fault, last)) :
      Course start (.error (fault.toFailure (.ownerNode partition))) last
        (listCall chroot group topic (.ok (passed.map (·.1) ++ name :: later)) ::
          passed.map (readCall chroot group topic) ++
            [.read (NodePath.owner chroot group topic name) (.error fault)])
  | complete {reached : σ} {nodes : List ReadNode} {ownership : Ownership}
      (hnodes : ReadsAll registry chroot group topic start nodes reached)
      (hownership : ownership.Holds nodes) :
      Course start (.ok ownership) reached
        (listCall chroot group topic (.ok (nodes.map (·.1))) ::
          nodes.map (readCall chroot group topic))

variable {registry chroot group topic}

theorem ReadsEach.names {state last : σ} {nodes : List ReadNode}
    (hreads : ReadsEach registry chroot group topic state nodes last) :
    ∀ node ∈ nodes, ∃ partition, node.partition? = some partition := by
  induction hreads with
  | nil state => simp
  | cons hname _ _ ih => exact List.forall_mem_cons.mpr ⟨⟨_, hname⟩, ih⟩

variable (registry chroot group topic) in
/-- Reading goes on to the last node, or up to a node that gives no claim. -/
theorem exists_reads (names : List String) (state : σ) :
    (∃ nodes last, nodes.map (·.1) = names ∧
      ReadsEach registry chroot group topic state nodes last) ∨
    ∃ passed name later reached, names = passed.map (·.1) ++ name :: later ∧
      ReadsEach registry chroot group topic state passed reached ∧
      (Text.readInt32? name = none ∨ ∃ partition fault last,
        Text.readInt32? name = some partition ∧
        (registry.read (NodePath.owner chroot group topic name)).run reached =
          (.error fault, last)) := by
  induction names generalizing state with
  | nil => exact .inl ⟨[], state, rfl, .nil state⟩
  | cons name rest ih =>
      cases hname : Text.readInt32? name with
      | none => exact .inr ⟨[], name, rest, state, rfl, .nil state, .inl hname⟩
      | some partition =>
          rcases hread : (registry.read (NodePath.owner chroot group topic name)).run state with
            ⟨fault | bytes, next⟩
          · exact .inr ⟨[], name, rest, state, rfl, .nil state,
              .inr ⟨partition, fault, next, hname, hread⟩⟩
          · rcases ih next with ⟨nodes, last, rfl, hreads⟩ |
              ⟨passed, other, later, reached, rfl, hpassed, hends⟩
            · exact .inl ⟨(name, bytes) :: nodes, last, rfl, .cons hname hread hreads⟩
            · exact .inr ⟨(name, bytes) :: passed, other, later, reached, rfl,
                .cons hname hread hpassed, hends⟩

/-! ## Runs -/

/-- What a recorded scan does at one node. -/
theorem claimNode_run (ownership : Ownership) (name : String) (state : σ) (log : List Exchange) :
    (claimNode registry.recorded chroot group topic ownership name).runFrom ⟨state, log⟩ =
      match Text.readInt32? name with
      | none => (.error (.protocol (.ownerNodeName name)), ⟨state, log⟩)
      | some partition =>
        let path := NodePath.owner chroot group topic name
        match (registry.read path).run state with
        | (.error fault, next) =>
          (.error (fault.toFailure (.ownerNode partition)),
            ⟨next, log ++ [.read path (.error fault)]⟩)
        | (.ok bytes, next) =>
          (.ok (ownership.claim (Text.decodeUtf8 bytes) partition),
            ⟨next, log ++ [.read path (.ok bytes)]⟩) := by
  unfold claimNode partitionOfNode
  rw [Errand.runFrom_bind, Errand.runFrom_ofExcept]
  cases Text.readInt32? name with
  | none => rfl
  | some partition =>
      dsimp only
      rw [Errand.runFrom_bind]
      rcases hread : (registry.read (NodePath.owner chroot group topic name)).run state with
        ⟨answer, next⟩
      have hnode : (readNode registry.recorded (.ownerNode partition)
          (NodePath.owner chroot group topic name)).runFrom ⟨state, log⟩ =
            (answer.mapError (RegistryFault.toFailure (.ownerNode partition)),
              ⟨next, log ++ [.read (NodePath.owner chroot group topic name) answer]⟩) := by
        have happlied : registry.read (NodePath.owner chroot group topic name) state =
            (answer, next) := hread
        change ((Recorded.call _ (registry.read _) ⟨state, log⟩).1.mapError _,
          (Recorded.call _ (registry.read _) ⟨state, log⟩).2) = _
        simp only [Recorded.call, happlied]
      rw [hnode]
      cases answer <;> rfl

/-- Nodes that were read are claimed one after another, and the scan goes on with the rest. -/
theorem ReadsEach.claimNodes_run {state reached : σ} {passed : List ReadNode}
    (hpassed : ReadsEach registry chroot group topic state passed reached) (rest : List String)
    (ownership : Ownership) (log : List Exchange) :
    ((passed.map (·.1) ++ rest).foldlM (claimNode registry.recorded chroot group topic)
        ownership).runFrom ⟨state, log⟩ =
      (rest.foldlM (claimNode registry.recorded chroot group topic)
        ((claimsOf passed).foldl
          (fun owners claim => owners.claim claim.1 claim.2) ownership)).runFrom
          ⟨reached, log ++ passed.map (readCall chroot group topic)⟩ := by
  induction hpassed generalizing ownership log with
  | nil state => simp [claimsOf]
  | @cons state next last node others partition hname hread _ ih =>
      have hparse : Text.readInt32? node.1 = some partition := hname
      have hclaims : claimsOf (node :: others) = (node.client, partition) :: claimsOf others := by
        simp [claimsOf, hname]
      rw [List.map_cons, List.cons_append, List.foldlM_cons, Errand.runFrom_bind, claimNode_run,
        hparse]
      simp only [hread, ih, hclaims, List.foldl_cons, List.map_cons, List.append_assoc,
        List.singleton_append]
      rfl

/-- A recorded scan lists the nodes, and then claims one after another. -/
theorem scan_recorded_run (start : σ) (log : List Exchange) :
    (scan registry.recorded chroot group topic).runFrom ⟨start, log⟩ =
      match (registry.children (NodePath.owners chroot group topic)).run start with
      | (.error fault, listed) =>
        (.error (match fault with
          | .absent => .notFound .subscriptionAbsent
          | .broken cause => .connection .ownersListing cause),
          ⟨listed, log ++ [listCall chroot group topic (.error fault)]⟩)
      | (.ok names, listed) =>
        (names.foldlM (claimNode registry.recorded chroot group topic) ∅).runFrom
          ⟨listed, log ++ [listCall chroot group topic (.ok names)]⟩ := by
  rcases hlisting : (registry.children (NodePath.owners chroot group topic)).run start with
    ⟨answer, listed⟩
  have happlied : registry.children (NodePath.owners chroot group topic) start = (answer, listed) :=
    hlisting
  have hnodes : (ownerNodes registry.recorded chroot group topic).runFrom ⟨start, log⟩ =
      (nodesOf answer, ⟨listed, log ++ [listCall chroot group topic answer]⟩) := by
    rw [ownerNodes_eq]
    change (nodesOf (Recorded.call _ (registry.children _) ⟨start, log⟩).1,
      (Recorded.call _ (registry.children _) ⟨start, log⟩).2) = _
    simp only [Recorded.call, happlied]
    rfl
  rw [scan, Errand.runFrom_bind, hnodes]
  rcases answer with (_ | cause) | names <;> rfl

/-- Every course is what the scan does, whatever was recorded before. -/
theorem Course.run_from {start reached : σ} {result : Except Failure Ownership}
    {calls : List Exchange}
    (hcourse : Course registry chroot group topic start result reached calls)
    (log : List Exchange) :
    (scan registry.recorded chroot group topic).runFrom ⟨start, log⟩ =
      (result, ⟨reached, log ++ calls⟩) := by
  rw [scan_recorded_run]
  cases hcourse with
  | absent hlisting => rw [hlisting]
  | unlisted hlisting => rw [hlisting]
  | misnamed hlisting hpassed hname =>
      rw [hlisting]
      dsimp only
      rw [hpassed.claimNodes_run, List.foldlM_cons, Errand.runFrom_bind, claimNode_run, hname,
        List.append_assoc]
      rfl
  | unread hlisting hpassed hname hread =>
      rw [hlisting]
      dsimp only
      rw [hpassed.claimNodes_run, List.foldlM_cons, Errand.runFrom_bind, claimNode_run, hname]
      simp only [hread, List.append_assoc, List.cons_append, List.nil_append]
  | @complete _ nodes ownership hnodes hownership =>
      obtain ⟨listed, hlisting, hreads⟩ := hnodes
      rw [hlisting]
      dsimp only
      have hall := hreads.claimNodes_run [] ∅
        (log ++ [listCall chroot group topic (.ok (nodes.map (·.1)))])
      rw [List.append_nil] at hall
      rw [hall, hownership.unique (holds_ofClaims hreads.names), List.append_assoc]
      rfl

theorem Course.run {start reached : σ} {result : Except Failure Ownership} {calls : List Exchange}
    (hcourse : Course registry chroot group topic start result reached calls) :
    (scan registry.recorded chroot group topic).runFrom ⟨start, []⟩ = (result, ⟨reached, calls⟩) :=
  hcourse.run_from []

variable (registry chroot group topic) in
/-- Every scan has a course. -/
theorem exists_course (start : σ) :
    ∃ result reached calls, Course registry chroot group topic start result reached calls := by
  rcases hlisting : (registry.children (NodePath.owners chroot group topic)).run start with
    ⟨(_ | cause) | names, listed⟩
  · exact ⟨_, _, _, .absent hlisting⟩
  · exact ⟨_, _, _, .unlisted hlisting⟩
  · rcases exists_reads registry chroot group topic names listed with
      ⟨nodes, last, rfl, hreads⟩ | ⟨passed, name, later, reached, rfl, hpassed, hends⟩
    · exact ⟨_, _, _, .complete ⟨listed, hlisting, hreads⟩ (holds_ofClaims hreads.names)⟩
    · obtain hname | ⟨partition, fault, last, hname, hread⟩ := hends
      · exact ⟨_, _, _, .misnamed hlisting hpassed hname⟩
      · exact ⟨_, _, _, .unread hlisting hpassed hname hread⟩

end Reading

/-! ## Exactness -/

/-- A scan of any registry takes its course and no other: nodes are read in the order in which they
are listed, and the first one that has no partition for its name or cannot be read ends the scan
with its failure, before any later node is read. If there is none, the scan comes to the ownership
that holds what the nodes say. Recording the calls changes nothing, and wherever the same nodes are
listed in another order and read the same, the ownership is the same. -/
theorem scan_iff_course (registry : Registry σ) (chroot group topic : String) (start : σ) :
    (∀ result reached calls,
      (scan registry.recorded chroot group topic).runFrom ⟨start, []⟩ =
          (result, ⟨reached, calls⟩) ↔
        Course registry chroot group topic start result reached calls) ∧
    (∀ result reached calls, Course registry chroot group topic start result reached calls →
      (scan registry chroot group topic).runFrom start = (result, reached)) ∧
    ∀ {τ : Type} (other : Registry τ) (origin : τ) (nodes others : List ReadNode) (last : σ)
      (final : τ), ReadsAll registry chroot group topic start nodes last →
        ReadsAll other chroot group topic origin others final → nodes.Perm others →
        ((scan other chroot group topic).runFrom origin).1 =
          ((scan registry chroot group topic).runFrom start).1 := by
  have hplain {σ : Type} {registry : Registry σ} {start reached : σ}
      {result : Except Failure Ownership} {calls : List Exchange}
      (hcourse : Course registry chroot group topic start result reached calls) :
      (scan registry chroot group topic).runFrom start = (result, reached) := by
    obtain ⟨hresult, hreached⟩ := mirrors_scan registry chroot group topic ⟨start, []⟩
    have hrun := hcourse.run
    change ((scan registry.recorded chroot group topic).runFrom ⟨start, []⟩).1 =
      Except.map id ((scan registry chroot group topic).runFrom start).1 at hresult
    change ((scan registry.recorded chroot group topic).runFrom ⟨start, []⟩).2.state =
      ((scan registry chroot group topic).runFrom start).2 at hreached
    rw [hrun, except_map_id] at hresult
    rw [hrun] at hreached
    exact Prod.ext hresult.symm hreached.symm
  refine ⟨fun result reached calls => ⟨fun hrun => ?_, Course.run⟩,
    fun _ _ _ hcourse => hplain hcourse, ?_⟩
  · obtain ⟨result', reached', calls', hcourse⟩ := exists_course registry chroot group topic start
    rw [hcourse.run] at hrun
    cases hrun
    exact hcourse
  · intro τ other origin nodes others last final hnodes hothers hperm
    obtain ⟨_, -, hreads⟩ := id hnodes
    have hholds := holds_ofClaims hreads.names
    rw [hplain (.complete hnodes hholds), hplain (.complete hothers (hholds.of_perm hperm))]

/-- Three spellings of two partitions, and two faulty bytes that decode to one client: the listing
may have any order, and each partition is listed once. -/
theorem scan_of_three_spellings :
    let replies : Canned.RegistryReplies :=
      { children := fun _ => .ok ["+1", "2", "01"]
        read := fun path => .ok [if path = NodePath.owner "" "g" "t" "2" then 0xFF else 0xFE] }
    let reversed : Canned.RegistryReplies :=
      { replies with children := fun _ => .ok ["01", "2", "+1"] }
    let ownership : Ownership := Std.ExtTreeMap.insert ∅ "\uFFFD" [1, 2]
    ((scan (replies.registry : Registry Unit) "" "g" "t").runFrom ()).1 = .ok ownership ∧
      (∃ calls, Course (replies.registry : Registry Unit) "" "g" "t" () (.ok ownership) () calls) ∧
      ((scan (reversed.registry : Registry Unit) "" "g" "t").runFrom ()).1 = .ok ownership := by
  intro replies reversed ownership
  let nodes : List ReadNode := [("+1", [0xFE]), ("2", [0xFF]), ("01", [0xFE])]
  have hnodes : ReadsAll (replies.registry : Registry Unit) "" "g" "t" () nodes () :=
    ⟨(), rfl, .cons (by rfl) (by rfl) (.cons (by rfl) (by rfl) (.cons (by rfl) (by rfl) (.nil ())))⟩
  have hreversed : ReadsAll (reversed.registry : Registry Unit) "" "g" "t" () nodes.reverse () :=
    ⟨(), rfl, .cons (by rfl) (by rfl) (.cons (by rfl) (by rfl) (.cons (by rfl) (by rfl) (.nil ())))⟩
  have hexact := scan_iff_course (replies.registry : Registry Unit) "" "g" "t" ()
  have hrun : (scan (replies.registry : Registry Unit).recorded "" "g" "t").runFrom ⟨(), []⟩ =
      (.ok ownership, ⟨(), listCall "" "g" "t" (.ok (nodes.map (·.1))) ::
        nodes.map (readCall "" "g" "t")⟩) := by rfl
  have hcourse := (hexact.1 _ _ _).mp hrun
  have hplain := hexact.2.1 _ _ _ hcourse
  have hsame := hexact.2.2 (reversed.registry : Registry Unit) () nodes nodes.reverse () () hnodes
    hreversed nodes.reverse_perm.symm
  exact ⟨by rw [hplain], ⟨_, hcourse⟩, by rw [hsame, hplain]⟩

end ConsumerGroups.Ownership
