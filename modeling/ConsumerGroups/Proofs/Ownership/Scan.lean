import ConsumerGroups.Proofs.Ownership.Claims
import ConsumerGroups.Proofs.Registry.Replies

/-! # What the scans make of a registry's replies

Over a registry that does not change, the scan of one group is a function of the registry's
replies, and the scan of all groups is a function of the scans of each.
-/

namespace ConsumerGroups.Ownership

open Canned

/-! ## One group -/

section One

variable (replies : RegistryReplies) (chroot group topic : String)

/-- What the scan makes of the listing of the owners. -/
def nodesOf : Except RegistryFault (List String) → Except Failure (List String)
  | .ok nodes => .ok nodes
  | .error .absent => .error (.notFound .subscriptionAbsent)
  | .error fault => .error (fault.toFailure .ownersListing)

/-- The claim that stands at a node. -/
def claimAt (node : String) : Except Failure (String × Int32) := do
  let partition ← partitionOfNode node
  let client ← (replies.read (NodePath.owner chroot group topic node)).mapError
    (RegistryFault.toFailure (.ownerNode partition))
  pure (Text.decodeUtf8 client, partition)

/-- The calls that reading the claim at a node makes; a node whose name is no partition is not
read. -/
def claimCalls (node : String) : List Exchange :=
  match partitionOfNode node with
  | .ok _ =>
    [.read (NodePath.owner chroot group topic node)
      (replies.read (NodePath.owner chroot group topic node))]
  | .error _ => []

/-- What the scan of a group makes of the replies. -/
def scanOf : Except Failure Ownership := do
  let nodes ← nodesOf (replies.children (NodePath.owners chroot group topic))
  (nodes.mapM (claimAt replies chroot group topic)).map ofClaims

/-- What reading a node adds to the ownership read before. -/
def addClaim (ownership : Ownership) (node : String) : Except Failure Ownership :=
  (claimAt replies chroot group topic node).map fun entry => ownership.claim entry.1 entry.2

/-- The calls that the scan of a group makes. -/
def scanCalls : List Exchange :=
  .children (NodePath.owners chroot group topic)
      (replies.children (NodePath.owners chroot group topic)) ::
    match nodesOf (replies.children (NodePath.owners chroot group topic)) with
    | .ok nodes =>
      callsUntil (addClaim replies chroot group topic) (claimCalls replies chroot group topic) ∅
        nodes
    | .error _ => []

theorem ownerNodes_eq {σ : Type} (registry : Registry σ) :
    ownerNodes registry chroot group topic =
      ExceptT.mk (nodesOf <$> registry.children (NodePath.owners chroot group topic)) := by
  unfold ownerNodes
  rw [map_eq_pure_bind]
  congr 2
  funext listing
  match listing with
  | .ok nodes => rfl
  | .error .absent => rfl
  | .error (.broken cause) => rfl

theorem told_ownerNodes :
    Told replies (fun registry => ownerNodes registry chroot group topic)
      (nodesOf (replies.children (NodePath.owners chroot group topic)))
      [.children (NodePath.owners chroot group topic)
        (replies.children (NodePath.owners chroot group topic))] := by
  simp only [ownerNodes_eq]
  exact Told.ofChildren nodesOf _

theorem told_readNode (context : Context) (path : String) :
    Told replies (fun registry => readNode registry context path)
      ((replies.read path).mapError (RegistryFault.toFailure context))
      [.read path (replies.read path)] :=
  Told.ofRead (Except.mapError (RegistryFault.toFailure context)) path

theorem told_claimNode (ownership : Ownership) (node : String) :
    Told replies (fun registry => claimNode registry chroot group topic ownership node)
      (addClaim replies chroot group topic ownership node)
      (claimCalls replies chroot group topic node) := by
  unfold claimNode addClaim claimAt claimCalls
  cases partitionOfNode node with
  | error failure => exact Told.bind_error (.ofExcept (.error failure))
  | ok partition =>
      apply Told.bind_ok (.ofExcept (.ok partition))
      have hread := told_readNode replies (.ownerNode partition)
        (NodePath.owner chroot group topic node)
      cases hclient : replies.read (NodePath.owner chroot group topic node) with
      | error fault =>
          rw [hclient] at hread
          exact hread.bind_error
      | ok client =>
          rw [hclient] at hread
          exact hread.bind_ok (.ofExcept (.ok _))

theorem foldlM_addClaim (nodes : List String) (start : Ownership) :
    nodes.foldlM (addClaim replies chroot group topic) start =
      (nodes.mapM (claimAt replies chroot group topic)).map
        (List.foldl (fun ownership entry => ownership.claim entry.1 entry.2) start) := by
  induction nodes generalizing start with
  | nil => rfl
  | cons node rest ih =>
      rw [List.foldlM_cons, List.mapM_cons, addClaim]
      cases claimAt replies chroot group topic node with
      | error failure => rfl
      | ok entry =>
          change rest.foldlM _ _ = Except.map _ (rest.mapM _ >>= _)
          rw [ih]
          cases rest.mapM (claimAt replies chroot group topic) <;> rfl

/-- The scan of one group over a registry that gives the replies. -/
theorem told_scan :
    Told replies (fun registry => scan registry chroot group topic)
      (scanOf replies chroot group topic) (scanCalls replies chroot group topic) := by
  unfold scan scanOf scanCalls
  have hlisting := told_ownerNodes replies chroot group topic
  cases hnodes : nodesOf (replies.children (NodePath.owners chroot group topic)) with
  | error failure =>
      rw [hnodes] at hlisting
      exact hlisting.bind_error
  | ok nodes =>
      rw [hnodes] at hlisting
      have hfold := Told.foldlM (told_claimNode replies chroot group topic) nodes ∅
      rw [foldlM_addClaim] at hfold
      exact hlisting.bind_ok hfold

variable {replies chroot group topic}

theorem nodesOf_eq_ok {listing : Except RegistryFault (List String)} {nodes : List String} :
    nodesOf listing = .ok nodes ↔ listing = .ok nodes := by
  cases listing with
  | ok listed => simp [nodesOf]
  | error fault => cases fault <;> simp [nodesOf]

/-- A scan succeeds exactly if the nodes are listed and each makes a claim. -/
theorem scanOf_eq_ok {ownership : Ownership} :
    scanOf replies chroot group topic = .ok ownership ↔
      ∃ nodes claims, replies.children (NodePath.owners chroot group topic) = .ok nodes ∧
        nodes.map (claimAt replies chroot group topic) = claims.map .ok ∧
        ofClaims claims = ownership := by
  unfold scanOf
  simp only [Results.bind_eq_ok, Results.map_eq_ok, Results.mapM_eq_ok, nodesOf_eq_ok,
    exists_and_left]

theorem scanOf_of_absent
    (habsent : replies.children (NodePath.owners chroot group topic) = .error .absent) :
    scanOf replies chroot group topic = .error (.notFound .subscriptionAbsent) := by
  unfold scanOf
  rw [habsent]
  rfl

end One

/-! ## All groups -/

section All

variable {single : String → Except Failure Ownership} {calls : String → List Exchange}

/-- Whether the scan of one group lets the scan of all groups go on: it came to an ownership, or
there is no such subscription. -/
def GoesOn (result : Except Failure Ownership) : Prop :=
  ∀ failure, result = .error failure → failure.isNotFound = true

/-- Whether exactly the ownerships found in some groups are collected. -/
def Collects (single : String → Except Failure Ownership) (groups : List String)
    (found : GroupOwnership) : Prop :=
  ∀ group ownership, found[group]? = some ownership ↔
    group ∈ groups ∧ single group = .ok ownership ∧ ownership.isEmpty = false

/-- What the scans of the single groups come to together, and the calls made for it. -/
inductive Gathered (single : String → Except Failure Ownership)
    (calls : String → List Exchange) (groups : List String) :
    Except Failure GroupOwnership → List Exchange → Prop
  /-- No group has failed, and all of them have been scanned. -/
  | finished {found : GroupOwnership} (hgoesOn : ∀ group ∈ groups, GoesOn (single group))
      (hcollects : Collects single groups found) :
      Gathered single calls groups (.ok found) (groups.flatMap calls)
  /-- The first group that has failed is the last to be scanned. -/
  | stopped {before after : List String} {group : String} {failure failed : Failure}
      (hgroups : groups = before ++ group :: after)
      (hgoesOn : ∀ passed ∈ before, GoesOn (single passed))
      (hfailure : single group = .error failure) (hkind : failure.isNotFound = false)
      (hreason : failed.reason = failure.reason)
      (hmessage : failed.message =
        "failed to fetch group `" ++ group ++ "` data: " ++ failure.message) :
      Gathered single calls groups (.error failed) ((before ++ [group]).flatMap calls)

/-- What the scan of a group adds to the owners found before. -/
def gather (single : String → Except Failure Ownership) (found : GroupOwnership)
    (group : String) : Except Failure GroupOwnership :=
  match single group with
  | .ok ownership => .ok (if ownership.isEmpty then found else found.insert group ownership)
  | .error failure =>
    if failure.isNotFound then .ok found else .error (failure.within (.groupData group))

theorem collects_empty : Collects single [] ∅ := by
  simp [Collects]

/-- A group that is passed over changes nothing. -/
theorem Collects.pass {groups : List String} {found : GroupOwnership} {group : String}
    (hcollects : Collects single groups found)
    (hnothing : ∀ ownership, single group = .ok ownership → ownership.isEmpty = true) :
    Collects single (groups ++ [group]) found := by
  intro other ownership
  rw [hcollects other ownership, List.mem_append, List.mem_singleton]
  constructor
  · intro hother
    exact ⟨.inl hother.1, hother.2⟩
  · intro hother
    obtain ⟨hmem | rfl, hscan, howned⟩ := hother
    · exact ⟨hmem, hscan, howned⟩
    · rw [hnothing ownership hscan] at howned
      cases howned

theorem Collects.insert {groups : List String} {found : GroupOwnership} {group : String}
    {ownership : Ownership} (hcollects : Collects single groups found)
    (hscan : single group = .ok ownership) (howned : ownership.isEmpty = false) :
    Collects single (groups ++ [group]) (found.insert group ownership) := by
  intro other others
  simp only [Std.ExtTreeMap.getElem?_insert, Std.LawfulEqOrd.compare_eq_iff_eq]
  by_cases hother : group = other
  · subst hother
    simp only [if_true, hscan, Option.some.injEq, Except.ok.injEq, List.mem_append,
      List.mem_singleton, or_true, true_and]
    constructor
    · intro hsame
      exact ⟨hsame, hsame ▸ howned⟩
    · exact And.left
  · rw [if_neg hother, hcollects other others]
    simp [Ne.symm hother]

theorem gather_eq_ok {found next : GroupOwnership} {group : String}
    (hgather : gather single found group = .ok next) :
    GoesOn (single group) ∧
      ∀ groups, Collects single groups found → Collects single (groups ++ [group]) next := by
  unfold gather at hgather
  cases hscan : single group with
  | error failure =>
      simp only [hscan] at hgather
      split at hgather
      next hnotFound =>
        cases hgather
        refine ⟨?_, fun groups hcollects => hcollects.pass (by simp [hscan])⟩
        intro other hother
        cases hother
        exact hnotFound
      next => cases hgather
  | ok ownership =>
      simp only [hscan] at hgather
      refine ⟨by simp [GoesOn], fun groups hcollects => ?_⟩
      cases howned : ownership.isEmpty with
      | true =>
          simp only [howned, if_true] at hgather
          cases hgather
          exact hcollects.pass (by simpa [hscan] using howned)
      | false =>
          simp only [howned] at hgather
          cases hgather
          exact hcollects.insert hscan howned

theorem gather_eq_error {found : GroupOwnership} {group : String} {failed : Failure}
    (hgather : gather single found group = .error failed) :
    ∃ failure, single group = .error failure ∧ failure.isNotFound = false ∧
      failed = failure.within (.groupData group) := by
  unfold gather at hgather
  cases hscan : single group with
  | ok ownership => simp [hscan] at hgather
  | error failure =>
      simp only [hscan] at hgather
      cases hkind : failure.isNotFound with
      | true => simp [hkind] at hgather
      | false =>
          simp only [hkind] at hgather
          cases hgather
          exact ⟨failure, rfl, hkind, rfl⟩

/-- A layer stands before the message of the failure inside. -/
theorem message_within (layer : Context) (failure : Failure) :
    (failure.within layer).message = layer.text ++ ": " ++ failure.message := by
  have hlayers : (failure.layers.map Context.text ++ failure.reason.details) ≠ [] := by
    simp [Failure.layers]
  exact String.intercalate_cons_of_ne_nil hlayers

theorem message_groupData (failure : Failure) (group : String) :
    (failure.within (.groupData group)).message =
      "failed to fetch group `" ++ group ++ "` data: " ++ failure.message := by
  have htext : Context.text (.groupData group) = "failed to fetch group `" ++ group ++ "` data" :=
    rfl
  have hcolon : "` data" ++ ": " = "` data: " := rfl
  rw [message_within, htext, ← hcolon]
  simp only [String.append_assoc]

/-- A scan that goes on after some groups gathers from all of them. -/
theorem gathered_after (groups before : List String) (found : GroupOwnership)
    (hgoesOn : ∀ passed ∈ before, GoesOn (single passed)) (hcollects : Collects single before found) :
    Gathered single calls (before ++ groups) (groups.foldlM (gather single) found)
      (before.flatMap calls ++ callsUntil (gather single) calls found groups) := by
  induction groups generalizing before found with
  | nil =>
      simp only [List.append_nil, callsUntil]
      exact .finished hgoesOn hcollects
  | cons group rest ih =>
      rw [List.foldlM_cons, callsUntil]
      cases hgather : gather single found group with
      | error failed =>
          obtain ⟨failure, hfailure, hkind, rfl⟩ := gather_eq_error hgather
          have hcalls : before.flatMap calls ++ (calls group ++ []) =
              (before ++ [group]).flatMap calls := by simp
          rw [hcalls]
          exact .stopped rfl hgoesOn hfailure hkind rfl (message_groupData failure group)
      | ok next =>
          obtain ⟨hgroup, hnext⟩ := gather_eq_ok hgather
          have hpassed : ∀ passed ∈ before ++ [group], GoesOn (single passed) := by
            intro passed hpassed
            rcases List.mem_append.mp hpassed with hbefore | hlast
            · exact hgoesOn passed hbefore
            · exact List.mem_singleton.mp hlast ▸ hgroup
          have hrest := ih (before ++ [group]) next hpassed (hnext before hcollects)
          rw [List.append_assoc, List.flatMap_append, List.append_assoc, List.flatMap_singleton]
            at hrest
          exact hrest

theorem gathered_foldlM (groups : List String) :
    Gathered single calls groups (groups.foldlM (gather single) ∅)
      (callsUntil (gather single) calls ∅ groups) := by
  simpa using gathered_after groups [] ∅ (by simp) (@collects_empty single)

end All

/-! ## The scan of all groups -/

section Told

variable (replies : RegistryReplies) (chroot topic : String)

theorem told_registeredGroups :
    Told replies (fun registry => registeredGroups registry chroot)
      ((replies.children (NodePath.groups chroot)).mapError
        (RegistryFault.toFailure .groupsListing))
      [.children (NodePath.groups chroot) (replies.children (NodePath.groups chroot))] :=
  Told.ofChildren (Except.mapError (RegistryFault.toFailure .groupsListing)) _

theorem told_scanGroup (found : GroupOwnership) (group : String) :
    Told replies (fun registry => scanGroup registry chroot topic found group)
      (gather (fun group => scanOf replies chroot group topic) found group)
      (scanCalls replies chroot group topic) := by
  have hscan := (told_scan replies chroot group topic).attempt
  rw [← List.append_nil (scanCalls replies chroot group topic)]
  apply hscan.bind_ok
  simp only [gather]
  cases scanOf replies chroot group topic with
  | ok ownership => exact .ofExcept (.ok _)
  | error failure =>
      cases hkind : failure.isNotFound with
      | true =>
          simp only [hkind, if_true]
          exact .ofExcept (.ok found)
      | false =>
          simp only [hkind, Bool.false_eq_true, if_false]
          exact .ofExcept (.error _)

/-- What the scan of all groups makes of the replies. -/
def scanGroupsOf : Except Failure GroupOwnership := do
  let groups ← (replies.children (NodePath.groups chroot)).mapError
    (RegistryFault.toFailure .groupsListing)
  groups.foldlM (gather fun group => scanOf replies chroot group topic) ∅

/-- The calls that the scan of all groups makes. -/
def scanGroupsCalls : List Exchange :=
  .children (NodePath.groups chroot) (replies.children (NodePath.groups chroot)) ::
    match replies.children (NodePath.groups chroot) with
    | .ok groups =>
      callsUntil (gather fun group => scanOf replies chroot group topic)
        (fun group => scanCalls replies chroot group topic) ∅ groups
    | .error _ => []

/-- The scan of all groups over a registry that gives the replies. -/
theorem told_scanGroups :
    Told replies (fun registry => scanGroups registry chroot topic)
      (scanGroupsOf replies chroot topic) (scanGroupsCalls replies chroot topic) := by
  unfold scanGroups scanGroupsOf scanGroupsCalls
  have hlisting := told_registeredGroups replies chroot
  cases hgroups : replies.children (NodePath.groups chroot) with
  | error fault =>
      rw [hgroups] at hlisting
      exact hlisting.bind_error
  | ok groups =>
      rw [hgroups] at hlisting
      exact hlisting.bind_ok (Told.foldlM (told_scanGroup replies chroot topic) groups ∅)

variable {chroot}

/-- A scan of listed groups gathers what the single scans come to. -/
theorem gathered_scanGroupsOf {listed : List String}
    (hlisted : replies.children (NodePath.groups chroot) = .ok listed) :
    ∃ made,
      Gathered (fun group => scanOf replies chroot group topic)
        (fun group => scanCalls replies chroot group topic) listed
        (scanGroupsOf replies chroot topic) made ∧
      scanGroupsCalls replies chroot topic =
        .children (NodePath.groups chroot) (.ok listed) :: made := by
  unfold scanGroupsOf scanGroupsCalls
  rw [hlisted]
  exact ⟨_, gathered_foldlM listed, rfl⟩

theorem scanGroupsOf_of_fault {fault : RegistryFault}
    (hlisted : replies.children (NodePath.groups chroot) = .error fault) :
    scanGroupsOf replies chroot topic = .error (fault.toFailure .groupsListing) := by
  unfold scanGroupsOf
  rw [hlisted]
  rfl

end Told

end ConsumerGroups.Ownership
