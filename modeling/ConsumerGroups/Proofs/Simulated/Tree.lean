import ConsumerGroups.Proofs.Registry.Paths
import ConsumerGroups.Simulated.Edit

/-! # The tree of the simulated registry

What every edit does to the nodes of the tree, first for any paths, then for the paths that lead
down by names: there, creating a node touches the nodes above it, and removing one takes away
everything that its names are a prefix of.
-/

namespace ConsumerGroups.Simulated.RegistryState

open NodePath

variable {registry : RegistryState}

/-! ## Any paths -/

theorem getElem?_addAbove (aboves : List String) (nodes : Table String (List UInt8))
    (key : String) :
    (aboves.foldl (fun nodes above => nodes.insertIfNew above []) nodes)[key]? =
      if key ∈ aboves then some (nodes[key]?.getD []) else nodes[key]? := by
  induction aboves generalizing nodes with
  | nil => simp
  | cons above rest ih =>
      rw [List.foldl_cons, ih]
      simp only [Std.ExtTreeMap.getElem?_insertIfNew, Std.LawfulEqOrd.compare_eq_iff_eq,
        List.mem_cons]
      by_cases hkey : above = key
      · subst hkey
        by_cases hmem : above ∈ nodes <;> simp [hmem]
      · simp [hkey, Ne.symm hkey]

/-- Creating a node gives it its bytes, and the nodes above it are there afterwards. -/
theorem getElem?_create (path : String) (bytes : List UInt8) (key : String) :
    (registry.create path bytes).nodes[key]? =
      if key = path then some bytes
      else if key ∈ ancestors path then some (registry.nodes[key]?.getD [])
      else registry.nodes[key]? := by
  unfold create
  simp only [Std.ExtTreeMap.getElem?_insert, Std.LawfulEqOrd.compare_eq_iff_eq,
    getElem?_addAbove, eq_comm (a := path)]

theorem mem_create {path key : String} {bytes : List UInt8} :
    key ∈ (registry.create path bytes).nodes ↔
      key = path ∨ key ∈ ancestors path ∨ key ∈ registry.nodes := by
  simp only [Std.ExtTreeMap.mem_iff_isSome_getElem?, getElem?_create]
  split
  next hkey => simp [hkey]
  next hkey =>
    split
    next habove => simp [habove]
    next habove => simp [hkey, habove]

theorem getElem?_remove (path key : String) :
    (registry.remove path).nodes[key]? =
      if key = path ∨ (below? path key).isSome = true then none else registry.nodes[key]? := by
  unfold remove
  simp only [Std.ExtTreeMap.getElem?_filter, Std.ExtTreeMap.getKey_eq]
  by_cases hgone : key = path ∨ (below? path key).isSome = true
  · rw [if_pos hgone]
    rcases hgone with hkey | hbelow
    · simp [hkey]
    · simp [Option.ne_none_iff_isSome.mpr hbelow]
  · rw [if_neg hgone]
    rw [not_or, Bool.not_eq_true, Option.isSome_eq_false_iff, Option.isNone_iff_eq_none] at hgone
    cases registry.nodes[key]? <;> simp [hgone.1, hgone.2]

theorem mem_remove {path key : String} :
    key ∈ (registry.remove path).nodes ↔
      ¬(key = path ∨ (below? path key).isSome = true) ∧ key ∈ registry.nodes := by
  simp only [Std.ExtTreeMap.mem_iff_isSome_getElem?, getElem?_remove]
  split <;> simp [*]

/-! ## Answers -/

theorem answer_eq_ok {α : Type} {path : String} {f : List UInt8 → α} {value : α} :
    registry.answer path f = .ok value ↔
      registry.failing[path]? = none ∧ ∃ bytes, registry.nodes[path]? = some bytes ∧
        f bytes = value := by
  unfold answer
  cases registry.failing[path]? with
  | some reason => simp
  | none => cases registry.nodes[path]? <;> simp

theorem answer_eq_absent {α : Type} {path : String} {f : List UInt8 → α} :
    registry.answer path f = .error .absent ↔
      registry.failing[path]? = none ∧ path ∉ registry.nodes := by
  rw [Std.ExtTreeMap.mem_iff_isSome_getElem?]
  unfold answer
  cases registry.failing[path]? with
  | some reason => simp
  | none => cases registry.nodes[path]? <;> simp

/-- Where no path fails, a node is listed exactly if it is there. -/
theorem children_cases (hworking : registry.failing = ∅) (path : String) :
    (path ∈ registry.nodes ∧ ∃ names, registry.children path = .ok names) ∨
      (path ∉ registry.nodes ∧ registry.children path = .error .absent) := by
  have hfree : registry.failing[path]? = none := by simp [hworking]
  by_cases hpath : path ∈ registry.nodes
  · obtain ⟨bytes, hbytes⟩ := Option.isSome_iff_exists.mp
      (Std.ExtTreeMap.mem_iff_isSome_getElem?.mp hpath)
    exact .inl ⟨hpath, _, answer_eq_ok.mpr ⟨hfree, bytes, hbytes, rfl⟩⟩
  · exact .inr ⟨hpath, answer_eq_absent.mpr ⟨hfree, hpath⟩⟩

/-- A listing names exactly the nodes that go on from a path with a slash and no further one. -/
theorem mem_children {path : String} {names : List String}
    (hchildren : registry.children path = .ok names) {name : String} :
    name ∈ names ↔ path ++ "/" ++ name ∈ registry.nodes ∧ '/' ∉ name.toList := by
  obtain ⟨-, bytes, -, rfl⟩ := answer_eq_ok.mp hchildren
  simp only [List.mem_filterMap, Std.ExtTreeMap.mem_keys, childName?_eq_some]
  constructor
  · rintro ⟨node, hnode, rfl, hslash⟩
    exact ⟨hnode, hslash⟩
  · intro hname
    exact ⟨_, hname.1, rfl, hname.2⟩

/-! ## Nodes above nodes -/

/-- Whether the nodes above every node of the tree are there too. -/
def Rooted (registry : RegistryState) : Prop :=
  ∀ (names : List NodeName) (rest : String), names ≠ [] → segments rest ≠ [] →
    down names ++ "/" ++ rest ∈ registry.nodes → down names ∈ registry.nodes

theorem rooted_empty : Rooted {} := by
  intro names rest hnames hrest hmem
  simp at hmem

/-- Creating a node creates the nodes above it first, and so those above any of them. -/
theorem Rooted.create (hrooted : registry.Rooted) (path : String) (bytes : List UInt8) :
    (registry.create path bytes).Rooted := by
  intro names rest hnames hrest hmem
  obtain ⟨more, hmore⟩ := exists_names rest
  have hmore_ne : more ≠ [] := by
    rintro rfl
    exact hrest hmore
  have hsegments : segments (down names ++ "/" ++ rest) = (names ++ more).map NodeName.text := by
    rw [segments_append, segments_down, hmore, List.map_append]
  rw [mem_create] at hmem ⊢
  rcases hmem with hpath | habove | hold
  · rw [hpath] at hsegments
    exact .inr (.inl ((mem_ancestors hsegments).mpr ⟨names, more, hnames, hmore_ne, rfl, rfl⟩))
  · obtain ⟨all, hall⟩ := exists_names path
    obtain ⟨upper, lower, -, hlower, rfl, hupper⟩ := (mem_ancestors hall).mp habove
    rw [hupper, segments_down, map_text_inj] at hsegments
    refine .inr (.inl ((mem_ancestors hall).mpr ⟨names, more ++ lower, hnames, ?_, ?_, rfl⟩))
    · simp [hlower]
    · rw [hsegments, List.append_assoc]
  · exact .inr (.inr (hrooted names rest hnames hrest hold))

/-- What stays when a node is removed lies below nodes that stay. -/
theorem Rooted.remove (hrooted : registry.Rooted) (path : String) :
    (registry.remove path).Rooted := by
  intro names rest hnames hrest hmem
  rw [mem_remove] at hmem ⊢
  obtain ⟨hstays, hmem⟩ := hmem
  refine ⟨fun hgone => hstays (.inr ?_), hrooted names rest hnames hrest hmem⟩
  rw [Option.isSome_iff_exists]
  rcases hgone with rfl | hbelow
  · exact ⟨rest, below?_eq_some.mpr rfl⟩
  · obtain ⟨middle, hmiddle⟩ := Option.isSome_iff_exists.mp hbelow
    refine ⟨middle ++ "/" ++ rest, ?_⟩
    rw [below?_eq_some] at hmiddle ⊢
    rw [hmiddle]
    simp only [String.append_assoc]

theorem Rooted.apply (hrooted : registry.Rooted) (edit : RegistryEdit) :
    (edit.apply registry).Rooted := by
  cases edit with
  | create path bytes => exact hrooted.create path bytes
  | remove path => exact hrooted.remove path
  | recordGroup chroot group => exact hrooted.create _ _
  | recordOwner chroot group topic node client => exact hrooted.create _ _
  | blockPath path reason => exact hrooted
  | close => exact hrooted

/-- A tree made by edits alone is rooted. -/
theorem rooted_edits (edits : List RegistryEdit) : (edits.foldl RegistryEdit.apply {}).Rooted := by
  suffices hfrom : ∀ registry : RegistryState, registry.Rooted →
      (edits.foldl RegistryEdit.apply registry).Rooted from hfrom {} rooted_empty
  induction edits with
  | nil => exact fun registry hrooted => hrooted
  | cons edit rest ih => exact fun registry hrooted => ih _ (hrooted.apply edit)

/-! ## Paths down by names -/

/-- Creating a node by names. -/
theorem getElem?_create_down (names : List NodeName) (bytes : List UInt8)
    (others : List NodeName) :
    (registry.create (down names) bytes).nodes[down others]? =
      if others = names then some bytes
      else if others ≠ [] ∧ others <+: names then some (registry.nodes[down others]?.getD [])
      else registry.nodes[down others]? := by
  rw [getElem?_create]
  simp only [down_inj, down_mem_ancestors]
  by_cases hsame : others = names
  · rw [if_pos hsame, if_pos hsame]
  · simp only [ne_eq, hsame, not_false_iff, and_true]

theorem mem_create_down {names others : List NodeName} {bytes : List UInt8} :
    down others ∈ (registry.create (down names) bytes).nodes ↔
      others = names ∨ (others ≠ [] ∧ others <+: names) ∨ down others ∈ registry.nodes := by
  rw [mem_create, down_inj, down_mem_ancestors]
  constructor
  · rintro (hsame | ⟨hne, hupper, -⟩ | hold)
    · exact .inl hsame
    · exact .inr (.inl ⟨hne, hupper⟩)
    · exact .inr (.inr hold)
  · rintro (hsame | ⟨hne, hupper⟩ | hold)
    · exact .inl hsame
    · by_cases hsame : others = names
      · exact .inl hsame
      · exact .inr (.inl ⟨hne, hupper, hsame⟩)
    · exact .inr (.inr hold)

theorem getElem?_remove_down (names others : List NodeName) :
    (registry.remove (down names)).nodes[down others]? =
      if names <+: others then none else registry.nodes[down others]? := by
  have hgone : (down others = down names ∨ (below? (down names) (down others)).isSome = true) ↔
      names <+: others := by
    rw [down_inj, isSome_below?_down]
    constructor
    · rintro (rfl | hbelow)
      · exact List.prefix_rfl
      · exact hbelow.1
    · intro hupper
      by_cases hsame : others = names
      · exact .inl hsame
      · exact .inr ⟨hupper, Ne.symm hsame⟩
  simp only [getElem?_remove, hgone]

theorem mem_remove_down {names others : List NodeName} :
    down others ∈ (registry.remove (down names)).nodes ↔
      ¬names <+: others ∧ down others ∈ registry.nodes := by
  simp only [Std.ExtTreeMap.mem_iff_isSome_getElem?, getElem?_remove_down]
  split <;> simp [*]

/-! ## Trees of named nodes -/

/-- Whether every node of the tree is reached from the root by names. -/
def Named (registry : RegistryState) : Prop :=
  ∀ key ∈ registry.nodes, ∃ names, key = down names

theorem Named.create_down (hnamed : registry.Named) (names : List NodeName)
    (bytes : List UInt8) : (registry.create (down names) bytes).Named := by
  intro key hkey
  rcases mem_create.mp hkey with hpath | habove | hold
  · exact ⟨names, hpath⟩
  · obtain ⟨upper, -, -, -, -, hupper⟩ := (mem_ancestors (segments_down names)).mp habove
    exact ⟨upper, hupper⟩
  · exact hnamed key hold

theorem Named.remove (hnamed : registry.Named) (path : String) :
    (registry.remove path).Named :=
  fun key hkey => hnamed key (mem_remove.mp hkey).2

/-- In a tree of named nodes, a listing holds the names that lead to a node. -/
theorem Named.mem_children_down (hnamed : registry.Named) {names : List NodeName}
    {listed : List String} (hlisted : registry.children (down names) = .ok listed)
    {name : String} :
    name ∈ listed ↔ ∃ last : NodeName, last.text = name ∧
      down (names ++ [last]) ∈ registry.nodes := by
  rw [mem_children hlisted]
  constructor
  · rintro ⟨hmem, hslash⟩
    obtain ⟨others, hothers⟩ := hnamed _ hmem
    obtain ⟨last, hlast, rfl⟩ := exists_name_of_child hothers.symm hslash
    exact ⟨last, hlast, hothers ▸ hmem⟩
  · rintro ⟨last, rfl, hmem⟩
    rw [down_append_singleton] at hmem
    exact ⟨hmem, last.slashFree⟩

end ConsumerGroups.Simulated.RegistryState
