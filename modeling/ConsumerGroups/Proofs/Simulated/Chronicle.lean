import Mathlib
import ConsumerGroups.Proofs.Simulated.Tree
import ConsumerGroups.Proofs.Text.Utf8

/-! # The tree that a history makes

What stands at a path is told by the edits made since the path was last removed. If one of them
created the path itself, the bytes are those of the latest; if not, but one created a node below
it, the node is there without bytes. So the flat table of paths is a tree: the nodes above every
node are there, listings name the nodes directly below, and removals take whole branches away.
-/

namespace ConsumerGroups

/-- A path of one or more names, each after a slash. -/
def NodePath.Canonical (path : String) : Prop :=
  ∃ names : List NodeName, names ≠ [] ∧ path = down names

namespace Simulated

open NodePath

namespace RegistryEdit

/-! ## Histories -/

/-- The node that an edit creates, with its bytes. -/
def creation? : RegistryEdit → Option (String × List UInt8)
  | create path bytes => some (path, bytes)
  | recordGroup chroot group => some (NodePath.group chroot group, [])
  | recordOwner chroot group topic node client =>
    some (NodePath.owner chroot group topic node, Text.encodeUtf8 client)
  | remove _ => none
  | blockPath _ _ => none
  | close => none

/-- An edit that creates no node but at a canonical path. -/
def CreatesCanonically (edit : RegistryEdit) : Prop :=
  ∀ path bytes, edit.creation? = some (path, bytes) → Canonical path

/-- An edit that removes a path, or one that it goes on from with a slash. -/
def Removes (edit : RegistryEdit) (path : String) : Prop :=
  ∃ above, edit = .remove above ∧ (path = above ∨ ∃ rest, path = above ++ "/" ++ rest)

/-- An edit that creates a node whose path goes on from the given one with a slash. -/
def CreatesBelow (edit : RegistryEdit) (path : String) : Prop :=
  ∃ rest bytes, edit.creation? = some (path ++ "/" ++ rest, bytes)

/-- Whether something was done in a history and not undone by any later edit. -/
def Since (done undone : RegistryEdit → Prop) (history : List RegistryEdit) : Prop :=
  ∃ before edit later, history = before ++ edit :: later ∧ done edit ∧ ∀ other ∈ later, ¬undone other

/-- The latest creation of exactly this path, since the path was last removed, gave it these
bytes. -/
def Gave (history : List RegistryEdit) (path : String) (bytes : List UInt8) : Prop :=
  Since (fun edit => edit.creation? = some (path, bytes))
    (fun edit => edit.Removes path ∨ ∃ others, edit.creation? = some (path, others)) history

/-- Since a path was last removed, a node was created below it. -/
def PassedThrough (history : List RegistryEdit) (path : String) : Prop :=
  Since (·.CreatesBelow path) (·.Removes path) history

/-- What a history leaves at a path: the bytes it gave to the path, or none if it only created a
node below. The root is no node. -/
def Leaves (history : List RegistryEdit) (path : String) (bytes : List UInt8) : Prop :=
  Gave history path bytes ∨
    (bytes = [] ∧ path ≠ "" ∧ PassedThrough history path ∧ ∀ given, ¬Gave history path given)

/-- A history that makes no read of a path fail. -/
def Unblocked (history : List RegistryEdit) (path : String) : Prop :=
  ∀ reason, .blockPath path reason ∉ history

variable {history : List RegistryEdit} {edit : RegistryEdit} {path : String}

/-! ## One edit more -/

section Since

variable {done undone : RegistryEdit → Prop}

theorem not_since_nil : ¬Since done undone [] := by
  rintro ⟨before, edit, later, hhistory, -⟩
  simp at hhistory

theorem since_append_singleton :
    Since done undone (history ++ [edit]) ↔
      done edit ∨ (¬undone edit ∧ Since done undone history) := by
  constructor
  · rintro ⟨before, first, later, hhistory, hdone, hlater⟩
    rcases List.eq_nil_or_concat later with rfl | ⟨others, last, rfl⟩
    · obtain ⟨-, hlast⟩ := List.append_inj' hhistory rfl
      obtain rfl := List.singleton_inj.mp hlast
      exact .inl hdone
    · rw [List.concat_eq_append, ← List.cons_append, ← List.append_assoc] at hhistory
      obtain ⟨rfl, hlast⟩ := List.append_inj' hhistory rfl
      obtain rfl := List.singleton_inj.mp hlast
      simp only [List.concat_eq_append, List.mem_append, List.mem_singleton] at hlater
      refine .inr ⟨hlater edit (.inr rfl), before, first, others, rfl, hdone, fun other hother => ?_⟩
      exact hlater other (.inl hother)
  · rintro (hdone | ⟨hkept, before, first, later, rfl, hdone, hlater⟩)
    · exact ⟨history, edit, [], rfl, hdone, by simp⟩
    · refine ⟨before, first, later ++ [edit], by simp, hdone, fun other hother => ?_⟩
      rcases List.mem_append.mp hother with hbefore | hlast
      · exact hlater other hbefore
      · exact List.mem_singleton.mp hlast ▸ hkept

end Since

theorem not_removes_of_creation {target : String} {bytes : List UInt8}
    (hcreation : edit.creation? = some (target, bytes)) : ¬edit.Removes path := by
  rintro ⟨above, rfl, -⟩
  cases hcreation

/-- A creation of the path itself is all that counts from then on. -/
theorem gave_of_creation {given bytes : List UInt8}
    (hcreation : edit.creation? = some (path, given)) :
    Gave (history ++ [edit]) path bytes ↔ bytes = given := by
  rw [Gave, since_append_singleton, hcreation]
  simp [eq_comm]

/-- What is neither created nor removed holds the bytes that it was given before. -/
theorem gave_of_others {bytes : List UInt8} (hremoves : ¬edit.Removes path)
    (hcreates : ∀ given, edit.creation? ≠ some (path, given)) :
    Gave (history ++ [edit]) path bytes ↔ Gave history path bytes := by
  rw [Gave, since_append_singleton]
  simp [hremoves, hcreates, Gave]

theorem not_gave_of_removes {bytes : List UInt8} (hremoves : edit.Removes path) :
    ¬Gave (history ++ [edit]) path bytes := by
  rw [Gave, since_append_singleton]
  rintro (hcreation | ⟨hkept, -⟩)
  · exact not_removes_of_creation hcreation hremoves
  · exact hkept (.inl hremoves)

theorem not_passedThrough_of_removes (hremoves : edit.Removes path) :
    ¬PassedThrough (history ++ [edit]) path := by
  rw [PassedThrough, since_append_singleton]
  rintro (⟨rest, bytes, hcreation⟩ | ⟨hkept, -⟩)
  · exact not_removes_of_creation hcreation hremoves
  · exact hkept hremoves

theorem passedThrough_of_below (hbelow : edit.CreatesBelow path) :
    PassedThrough (history ++ [edit]) path :=
  since_append_singleton.mpr (.inl hbelow)

theorem passedThrough_of_others (hremoves : ¬edit.Removes path)
    (hbelow : ¬edit.CreatesBelow path) :
    PassedThrough (history ++ [edit]) path ↔ PassedThrough history path := by
  rw [PassedThrough, since_append_singleton]
  simp [hremoves, hbelow, PassedThrough]

end RegistryEdit

/-! ## What a history leaves -/

namespace RegistryState

open RegistryEdit

/-- The registry that a history makes of an empty one. -/
abbrev madeBy (history : List RegistryEdit) : RegistryState :=
  history.foldl RegistryEdit.apply {}

theorem madeBy_append_singleton (history : List RegistryEdit) (edit : RegistryEdit) :
    madeBy (history ++ [edit]) = edit.apply (madeBy history) := by
  rw [madeBy, List.foldl_append]
  rfl

variable {registry : RegistryState} {edit : RegistryEdit} {path : String}

theorem apply_of_creation {bytes : List UInt8} (hcreation : edit.creation? = some (path, bytes)) :
    edit.apply registry = registry.create path bytes := by
  cases edit <;> cases hcreation <;> rfl

/-- An edit that creates nothing takes away what it removes, and leaves the other nodes. -/
theorem getElem?_apply_of_no_creation [Decidable (edit.Removes path)]
    (hcreation : edit.creation? = none) :
    (edit.apply registry).nodes[path]? = if edit.Removes path then none else registry.nodes[path]? := by
  cases edit with
  | remove above =>
      have hremoves : (RegistryEdit.remove above).Removes path ↔
          path = above ∨ (below? above path).isSome = true := by
        simp [Removes, Option.isSome_iff_exists, below?_eq_some]
      simp only [RegistryEdit.apply, getElem?_remove, hremoves]
  | blockPath blocked reason => simp [RegistryEdit.apply, blockPath, Removes]
  | close => simp [RegistryEdit.apply, Removes]
  | _ => cases hcreation

/-- The bytes that a node has, or comes to have when one is created below it. -/
theorem getD_eq_iff_gave {history : List RegistryEdit} {path : String} {bytes : List UInt8}
    (hbefore : ∀ bytes, registry.nodes[path]? = some bytes ↔ Leaves history path bytes) :
    registry.nodes[path]?.getD [] = bytes ↔
      Gave history path bytes ∨ (bytes = [] ∧ ∀ given, ¬Gave history path given) := by
  cases hnode : registry.nodes[path]? with
  | none =>
      have hnever : ∀ given, ¬Gave history path given := by
        intro given hgave
        have hkept := (hbefore given).mpr (.inl hgave)
        rw [hnode] at hkept
        cases hkept
      simp [hnever, eq_comm]
  | some kept =>
      have hkept := (hbefore kept).mp hnode
      have hsame : ∀ given, Gave history path given → given = kept := by
        intro given hgave
        have hnode' := (hbefore given).mpr (.inl hgave)
        rw [hnode] at hnode'
        exact (Option.some.inj hnode').symm
      rw [Option.getD_some]
      constructor
      · rintro rfl
        rcases hkept with hgave | ⟨hempty, -, -, hnever⟩
        · exact .inl hgave
        · exact .inr ⟨hempty, hnever⟩
      · rintro (hgave | ⟨hempty, hnever⟩)
        · exact (hsame bytes hgave).symm
        · rcases hkept with hgave | ⟨hkept, -⟩
          · exact absurd hgave (hnever kept)
          · rw [hkept, hempty]

/-- The nodes of a registry are what its history leaves. -/
theorem getElem?_madeBy {history : List RegistryEdit}
    (hcanonical : ∀ edit ∈ history, edit.CreatesCanonically) (path : String) (bytes : List UInt8) :
    (madeBy history).nodes[path]? = some bytes ↔ Leaves history path bytes := by
  classical
  induction history using List.reverseRecOn generalizing bytes with
  | nil => simp [Leaves, Gave, PassedThrough, not_since_nil]
  | append_singleton history edit ih =>
      have hbefore := ih fun other hother => hcanonical other (List.mem_append_left _ hother)
      rw [madeBy_append_singleton]
      cases hcreation : edit.creation? with
      | none =>
          have hcreates : ∀ given, edit.creation? ≠ some (path, given) := by simp [hcreation]
          have hbelow : ¬edit.CreatesBelow path := by simp [CreatesBelow, hcreation]
          rw [getElem?_apply_of_no_creation hcreation]
          by_cases hremoves : edit.Removes path
          · simp [Leaves, hremoves, not_gave_of_removes, not_passedThrough_of_removes]
          · rw [if_neg hremoves, hbefore]
            simp only [Leaves, gave_of_others hremoves hcreates,
              passedThrough_of_others hremoves hbelow]
      | some created =>
          obtain ⟨target, given⟩ := created
          have hremoves : ¬edit.Removes path := not_removes_of_creation hcreation
          obtain ⟨names, -, rfl⟩ := hcanonical edit (by simp) target given hcreation
          have hbelow : edit.CreatesBelow path ↔ ∃ rest, down names = path ++ "/" ++ rest := by
            simp [CreatesBelow, hcreation]
          rw [apply_of_creation hcreation, getElem?_create]
          by_cases hsame : path = down names
          · subst hsame
            have hgiven : ¬∀ other, ¬other = given := fun hnever => hnever given rfl
            simp only [Leaves, gave_of_creation hcreation, hgiven, if_true, Option.some.injEq,
              and_false, or_false, eq_comm (a := given)]
          · have hcreates : ∀ other, edit.creation? ≠ some (path, other) := by
              intro other hother
              rw [hcreation] at hother
              cases hother
              exact hsame rfl
            rw [if_neg hsame]
            simp only [Leaves, gave_of_others hremoves hcreates, mem_ancestors_down_iff, ← hbelow]
            by_cases habove : path ≠ "" ∧ edit.CreatesBelow path
            · -- A node above the created one keeps its bytes, or comes to be without any.
              rw [if_pos habove]
              simp only [passedThrough_of_below habove.2, habove.1, ne_eq, not_false_eq_true,
                true_and, Option.some.injEq]
              exact getD_eq_iff_gave hbefore
            · rw [if_neg habove, hbefore, Leaves]
              by_cases hroot : path = ""
              · simp only [hroot, ne_eq, not_true_eq_false, false_and, and_false]
              · have hclear : ¬edit.CreatesBelow path := fun hcreates => habove ⟨hroot, hcreates⟩
                rw [passedThrough_of_others hremoves hclear]

theorem mem_madeBy {history : List RegistryEdit}
    (hcanonical : ∀ edit ∈ history, edit.CreatesCanonically) (path : String) :
    path ∈ (madeBy history).nodes ↔ ∃ bytes, Leaves history path bytes := by
  rw [Std.ExtTreeMap.mem_iff_isSome_getElem?, Option.isSome_iff_exists]
  simp only [getElem?_madeBy hcanonical]

/-- Every node was created, or lies above a created one, and so is reached by names. -/
theorem canonical_madeBy {history : List RegistryEdit}
    (hcanonical : ∀ edit ∈ history, edit.CreatesCanonically) {path : String}
    (hmem : path ∈ (madeBy history).nodes) : Canonical path := by
  obtain ⟨bytes, hgave | ⟨-, hroot, hthrough, -⟩⟩ := (mem_madeBy hcanonical path).mp hmem
  · obtain ⟨before, edit, later, rfl, hcreation, -⟩ := hgave
    exact hcanonical edit (by simp) path bytes hcreation
  · obtain ⟨before, edit, later, rfl, ⟨rest, given, hcreation⟩, -⟩ := hthrough
    obtain ⟨names, -, hbelow⟩ := hcanonical edit (by simp) _ given hcreation
    obtain ⟨upper, lower, -, -, rfl⟩ := exists_upper_of_below hbelow.symm
    refine ⟨upper, ?_, rfl⟩
    rintro rfl
    exact hroot rfl

theorem failing_madeBy {history : List RegistryEdit} {path : String} :
    (madeBy history).failing[path]? = none ↔ Unblocked history path := by
  induction history using List.reverseRecOn with
  | nil => simp [Unblocked]
  | append_singleton history edit ih =>
      have hunblocked : Unblocked (history ++ [edit]) path ↔
          Unblocked history path ∧ ∀ reason, edit ≠ .blockPath path reason := by
        simp [Unblocked, forall_and, eq_comm (a := edit)]
      rw [madeBy_append_singleton, hunblocked, ← ih]
      cases edit with
      | blockPath blocked reason =>
          simp only [RegistryEdit.apply, blockPath, Std.ExtTreeMap.getElem?_insert,
            Std.LawfulEqOrd.compare_eq_iff_eq]
          by_cases hblocked : blocked = path <;> simp [hblocked]
      | _ => simp [RegistryEdit.apply, create, remove, recordGroup, recordOwner]

theorem lt_of_append_lt {common first second : List Char}
    (hlt : common ++ first < common ++ second) : first < second := by
  induction common with
  | nil => exact hlt
  | cons c rest ih =>
      rcases List.cons_lt_cons_iff.mp hlt with hsame | ⟨-, hrest⟩
      · exact absurd hsame (lt_irrefl c)
      · exact ih hrest

/-- A listing ascends in the order of the names' bytes. -/
theorem ascending_children {names : List String}
    (hchildren : registry.children path = .ok names) :
    (names.map Text.encodeUtf8).Pairwise (· < ·) := by
  obtain ⟨-, bytes, -, rfl⟩ := answer_eq_ok.mp hchildren
  rw [List.pairwise_map, List.pairwise_filterMap]
  refine Std.ExtTreeMap.ordered_keys.imp ?_
  intro first second hordered name hname other hother
  -- Both nodes go on from the same path, so what is left of them is in the same order.
  rw [childName?_eq_some] at hname hother
  rw [hname.1, hother.1, compare_lt_iff_lt, String.lt_iff_toList_lt] at hordered
  simp only [String.toList_append] at hordered
  refine Text.encodeUtf8_lt (String.lt_iff_toList_lt.mpr ?_)
  exact lt_of_append_lt hordered

/-- What it takes for a flat table of nodes to be the tree that a history tells of. -/
structure TreeOf (history : List RegistryEdit) (registry : RegistryState) : Prop where
  canonical : ∀ path ∈ registry.nodes, Canonical path
  above : ∀ upper lower : List NodeName, upper ≠ [] →
    down (upper ++ lower) ∈ registry.nodes → down upper ∈ registry.nodes
  read_eq : ∀ path bytes, Unblocked history path →
    (registry.read path = .ok bytes ↔ Leaves history path bytes)
  present : ∀ path, Unblocked history path → path ∈ registry.nodes →
    (∃ bytes, registry.read path = .ok bytes) ∧ ∃ names, registry.children path = .ok names ∧
      (names.map Text.encodeUtf8).Pairwise (· < ·) ∧
      ∀ name, name ∈ names ↔ '/' ∉ name.toList ∧ path ++ "/" ++ name ∈ registry.nodes
  missing : ∀ path, Unblocked history path → path ∉ registry.nodes →
    registry.read path = .error .absent ∧ registry.children path = .error .absent
  remove : ∀ names others : List NodeName,
    (registry.remove (down names)).nodes[down others]? =
      if names <+: others then none else registry.nodes[down others]?

/-- The nodes that a history leaves form a tree, and reads and listings tell its nodes. -/
theorem treeOf_history {history : List RegistryEdit}
    (hcanonical : ∀ edit ∈ history, edit.CreatesCanonically) :
    TreeOf history (madeBy history) where
  canonical path hmem := canonical_madeBy hcanonical hmem
  above upper lower hupper hmem := by
    cases lower with
    | nil => rwa [List.append_nil] at hmem
    | cons name rest =>
        rw [down, descend_append, descend_cons_eq] at hmem
        refine rooted_edits history upper _ hupper ?_ hmem
        simp [segments_descend, segments_name]
  read_eq path bytes hunblocked := by
    rw [← getElem?_madeBy hcanonical]
    simp [read, answer_eq_ok, failing_madeBy.mpr hunblocked]
  present path hunblocked hmem := by
    have hfree := failing_madeBy.mpr hunblocked
    obtain ⟨bytes, hbytes⟩ := Option.isSome_iff_exists.mp
      (Std.ExtTreeMap.mem_iff_isSome_getElem?.mp hmem)
    obtain ⟨names, hchildren⟩ : ∃ names, (madeBy history).children path = .ok names :=
      ⟨_, answer_eq_ok.mpr ⟨hfree, bytes, hbytes, rfl⟩⟩
    refine ⟨⟨bytes, answer_eq_ok.mpr ⟨hfree, bytes, hbytes, rfl⟩⟩, names, hchildren,
      ascending_children hchildren, fun name => ?_⟩
    rw [mem_children hchildren, and_comm]
  missing path hunblocked hmem :=
    have hfree := failing_madeBy.mpr hunblocked
    ⟨answer_eq_absent.mpr ⟨hfree, hmem⟩, answer_eq_absent.mpr ⟨hfree, hmem⟩⟩
  remove names others := getElem?_remove_down names others

/-- A branch goes, and its neighbour stays although its path starts with the same characters. -/
theorem treeOf_history_of_neighbours :
    let history : List RegistryEdit :=
      [.create "/a/b/c" [1], .create "/a/b" [2], .create "/a/bc" [3], .remove "/a/b"]
    TreeOf history (madeBy history) ∧ (madeBy history).read "/a" = .ok [] ∧
      (madeBy history).children "/a" = .ok ["bc"] ∧
      (madeBy history).read "/a/b/c" = .error .absent := by
  let a : NodeName := ⟨"a", by decide, by decide⟩
  let b : NodeName := ⟨"b", by decide, by decide⟩
  let c : NodeName := ⟨"c", by decide, by decide⟩
  let bc : NodeName := ⟨"bc", by decide, by decide⟩
  refine ⟨treeOf_history ?_, by cbv, by cbv, by cbv⟩
  simp only [List.forall_mem_cons]
  refine ⟨?_, ?_, ?_, ?_, by simp⟩ <;> rintro path bytes ⟨⟩
  · exact ⟨[a, b, c], by simp, by rfl⟩
  · exact ⟨[a, b], by simp, by rfl⟩
  · exact ⟨[a, bc], by simp, by rfl⟩

end RegistryState
end Simulated
end ConsumerGroups
