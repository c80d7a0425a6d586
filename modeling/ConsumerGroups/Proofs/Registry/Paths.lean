import Mathlib.Data.List.Infix
import ConsumerGroups.Simulated.Registry

/-! # Paths of named nodes

A path that leads down from the root by names can be read back: the names are its segments, a
node lies below another exactly if its names go on from the other's, and the nodes above it are
those of the shorter lists of names.
-/

namespace ConsumerGroups

open Simulated

/-- The name of a node within the one above it: some characters, and none of them a slash. -/
@[ext]
structure NodeName where
  text : String
  nonempty : text ≠ ""
  slashFree : '/' ∉ text.toList
deriving DecidableEq

namespace NodePath

/-- The path from a node down some names. -/
def descend (start : String) (names : List NodeName) : String :=
  names.foldl (fun path name => path ++ "/" ++ name.text) start

/-- The path from the root down some names. -/
def down (names : List NodeName) : String :=
  descend "" names

theorem descend_cons (start : String) (name : NodeName) (rest : List NodeName) :
    descend start (name :: rest) = descend (start ++ "/" ++ name.text) rest := rfl

theorem descend_append (start : String) (names more : List NodeName) :
    descend start (names ++ more) = descend (descend start names) more :=
  List.foldl_append

theorem down_append_singleton (names : List NodeName) (name : NodeName) :
    down (names ++ [name]) = down names ++ "/" ++ name.text :=
  descend_append "" names [name]

/-- Where a path starts does not matter for how it goes on. -/
theorem descend_append_text (start more : String) (names : List NodeName) :
    descend (start ++ more) names = start ++ descend more names := by
  induction names generalizing more with
  | nil => rfl
  | cons name rest ih =>
      rw [descend_cons, descend_cons, ← ih]
      simp only [String.append_assoc]

theorem descend_cons_eq (start : String) (name : NodeName) (rest : List NodeName) :
    descend start (name :: rest) = start ++ "/" ++ descend name.text rest := by
  rw [descend_cons, descend_append_text]

end NodePath

namespace Simulated

open NodePath

/-! ## Segments -/

theorem segments_append (path rest : String) :
    segments (path ++ "/" ++ rest) = segments path ++ segments rest := by
  have hchars : (path ++ "/" ++ rest).toList = path.toList ++ '/' :: rest.toList := by
    simp [String.toList_append]
  unfold segments
  rw [hchars, List.splitOn, List.splitOnP_append_cons _ _ (by simp), List.filter_append,
    List.map_append]
  rfl

theorem segments_slashFree {text : String} (hslash : '/' ∉ text.toList) :
    segments text = if text = "" then [] else [text] := by
  have hsplit : text.toList.splitOn '/' = [text.toList] := by
    apply List.splitOnP_eq_singleton
    intro c hc
    have hne : c ≠ '/' := fun hsame => hslash (hsame ▸ hc)
    simpa using hne
  unfold segments
  rw [hsplit]
  split
  next hempty => simp [hempty]
  next hempty => simp [hempty]

theorem segments_name (name : NodeName) : segments name.text = [name.text] := by
  rw [segments_slashFree name.slashFree, if_neg name.nonempty]

theorem segments_descend (start : String) (names : List NodeName) :
    segments (descend start names) = segments start ++ names.map NodeName.text := by
  induction names generalizing start with
  | nil => simp [descend]
  | cons name rest ih =>
      rw [descend_cons, ih, segments_append, segments_name, List.map_cons, List.append_assoc,
        List.singleton_append]

/-- The segments of a path are the names that it leads down by. -/
theorem segments_down (names : List NodeName) : segments (down names) = names.map NodeName.text :=
  segments_descend "" names

/-- The segments of any path are names. -/
theorem exists_names (path : String) :
    ∃ names : List NodeName, segments path = names.map NodeName.text := by
  -- The induction goes from one slash to the next, so it is on the length of the path.
  induction hlength : path.toList.length using Nat.strong_induction_on generalizing path with
  | _ length ih =>
      by_cases hslash : '/' ∈ path.toList
      · obtain ⟨first, rest, hchars, hfirst⟩ := List.eq_append_cons_of_mem hslash
        have hpath : path = String.ofList first ++ "/" ++ String.ofList rest := by
          apply String.toList_inj.mp
          simp [String.toList_append, hchars]
        have hshorter : (String.ofList rest).toList.length < length := by
          rw [← hlength, hchars, String.toList_ofList, List.length_append, List.length_cons]
          omega
        obtain ⟨names, hnames⟩ := ih _ hshorter _ rfl
        have hfree : '/' ∉ (String.ofList first).toList := by rwa [String.toList_ofList]
        rw [hpath, segments_append, hnames, segments_slashFree hfree]
        split
        next => exact ⟨names, rfl⟩
        next hempty => exact ⟨⟨_, hempty, hfree⟩ :: names, rfl⟩
      · rw [segments_slashFree hslash]
        split
        next => exact ⟨[], rfl⟩
        next hempty => exact ⟨[⟨path, hempty, hslash⟩], rfl⟩

theorem map_text_inj {names others : List NodeName} :
    names.map NodeName.text = others.map NodeName.text ↔ names = others := by
  refine (List.map_inj_right ?_)
  intro name other hsame
  exact NodeName.ext hsame

theorem down_inj {names others : List NodeName} : down names = down others ↔ names = others := by
  refine ⟨fun hsame => ?_, fun hsame => hsame ▸ rfl⟩
  rw [← map_text_inj, ← segments_down, ← segments_down, hsame]

/-! ## The nodes above a node -/

theorem pathsDown_cons_cons (start name next : String) (rest : List String) :
    pathsDown start (name :: next :: rest) =
      (start ++ "/" ++ name) :: pathsDown (start ++ "/" ++ name) (next :: rest) := rfl

theorem mem_pathsDown {start path : String} {names : List NodeName} :
    path ∈ pathsDown start (names.map NodeName.text) ↔
      ∃ above rest, above ≠ [] ∧ rest ≠ [] ∧ names = above ++ rest ∧
        path = descend start above := by
  induction names generalizing start with
  | nil =>
      simp only [List.map_nil, pathsDown, List.not_mem_nil, false_iff]
      rintro ⟨above, rest, habove, -, hnames, -⟩
      exact habove (List.append_eq_nil_iff.mp hnames.symm).1
  | cons name more ih =>
      cases more with
      | nil =>
          simp only [List.map_cons, List.map_nil, pathsDown, List.not_mem_nil, false_iff]
          rintro ⟨above, rest, habove, hrest, hnames, -⟩
          have hlength := congrArg List.length hnames
          have habove' := List.length_pos_iff.mpr habove
          have hrest' := List.length_pos_iff.mpr hrest
          simp only [List.length_append, List.length_singleton] at hlength
          omega
      | cons next later =>
          rw [List.map_cons] at ih ⊢
          rw [List.map_cons, pathsDown_cons_cons, List.mem_cons, ih]
          constructor
          · rintro (hfirst | ⟨above, rest, habove, hrest, hnames, hpath⟩)
            · exact ⟨[name], next :: later, by simp, by simp, rfl, hfirst⟩
            · exact ⟨name :: above, rest, by simp, hrest, by rw [hnames, List.cons_append], hpath⟩
          · rintro ⟨above, rest, habove, hrest, hnames, hpath⟩
            cases above with
            | nil => exact absurd rfl habove
            | cons first others =>
                obtain ⟨rfl, hothers⟩ := List.cons.inj hnames
                cases others with
                | nil => exact .inl hpath
                | cons second others => exact .inr ⟨_, rest, by simp, hrest, hothers, hpath⟩

theorem mem_ancestors {path above : String} {names : List NodeName}
    (hnames : segments path = names.map NodeName.text) :
    above ∈ ancestors path ↔
      ∃ upper rest, upper ≠ [] ∧ rest ≠ [] ∧ names = upper ++ rest ∧ above = down upper := by
  rw [ancestors, hnames, mem_pathsDown]
  rfl

/-- The nodes above a node are those on the way down to it. -/
theorem down_mem_ancestors {upper names : List NodeName} :
    down upper ∈ ancestors (down names) ↔ upper ≠ [] ∧ upper <+: names ∧ upper ≠ names := by
  rw [mem_ancestors (segments_down names)]
  constructor
  · rintro ⟨above, rest, habove, hrest, rfl, hsame⟩
    rw [down_inj] at hsame
    subst hsame
    refine ⟨habove, List.prefix_append _ _, fun hall => hrest ?_⟩
    exact List.self_eq_append_right.mp hall
  · rintro ⟨habove, ⟨rest, rfl⟩, hall⟩
    refine ⟨upper, rest, habove, fun hrest => hall ?_, rfl, rfl⟩
    rw [hrest, List.append_nil]

/-! ## The nodes below a node -/

theorem below?_eq_some {path node rest : String} :
    below? path node = some rest ↔ node = path ++ "/" ++ rest := by
  unfold below?
  rw [Option.map_eq_some_iff]
  constructor
  · rintro ⟨chars, hchars, rfl⟩
    apply String.toList_inj.mp
    rw [← List.isPrefixOf?_eq_some_iff_append_eq.mp hchars]
    simp [String.toList_append]
  · rintro rfl
    refine ⟨rest.toList, ?_, String.ofList_toList⟩
    rw [List.isPrefixOf?_eq_some_iff_append_eq]
    simp [String.toList_append]

theorem childName?_eq_some {path node name : String} :
    childName? path node = some name ↔ node = path ++ "/" ++ name ∧ '/' ∉ name.toList := by
  unfold childName?
  rw [Option.filter_eq_some_iff, below?_eq_some]
  simp

theorem append_slash_ne (path rest : String) : path ++ "/" ++ rest ≠ path := by
  intro hsame
  have hlength := congrArg (fun text : String => text.toList.length) hsame
  simp only [String.toList_append, List.length_append] at hlength
  have hslash : "/".toList.length = 1 := rfl
  omega

/-- A node lies below another exactly if its names go on from the other's. -/
theorem isSome_below?_down {names others : List NodeName} :
    (below? (down names) (down others)).isSome = true ↔ names <+: others ∧ names ≠ others := by
  rw [Option.isSome_iff_exists]
  simp only [below?_eq_some]
  constructor
  · rintro ⟨rest, hbelow⟩
    obtain ⟨more, hmore⟩ := exists_names rest
    have hsegments := congrArg segments hbelow
    rw [segments_append, segments_down, segments_down, hmore, ← List.map_append, map_text_inj]
      at hsegments
    refine ⟨⟨more, hsegments.symm⟩, fun hall => ?_⟩
    rw [hall] at hbelow
    exact append_slash_ne _ _ hbelow.symm
  · rintro ⟨⟨more, rfl⟩, hall⟩
    cases more with
    | nil => exact absurd (List.append_nil names).symm hall
    | cons name rest =>
        refine ⟨descend name.text rest, ?_⟩
        rw [← descend_cons_eq]
        exact descend_append "" names (name :: rest)

/-- What a path of names goes on from with a slash is a path of the first of these names. -/
theorem exists_upper_of_below {names : List NodeName} {path rest : String}
    (hbelow : down names = path ++ "/" ++ rest) :
    ∃ upper lower, names = upper ++ lower ∧ lower ≠ [] ∧ path = down upper := by
  -- The slash either is the last one of the path, or stands in the path without its last name.
  induction names using List.reverseRecOn generalizing rest with
  | nil =>
      have hlength := congrArg (fun text : String => text.toList.length) hbelow
      simp [down, descend] at hlength
  | append_singleton names last ih =>
      have hchars := congrArg String.toList hbelow
      rw [down_append_singleton] at hchars
      simp only [String.toList_append, List.append_assoc] at hchars
      have hslash : "/".toList = ['/'] := rfl
      rw [hslash, List.singleton_append, List.singleton_append, List.append_eq_append_iff]
        at hchars
      rcases hchars with ⟨more, hpath, hlast⟩ | ⟨more, hupper, hlast⟩
      · cases more with
        | nil =>
            refine ⟨names, [last], rfl, by simp, String.toList_inj.mp ?_⟩
            rw [hpath, List.append_nil]
        | cons c more =>
            obtain ⟨-, hlast⟩ := List.cons.inj hlast
            exact absurd (hlast ▸ List.mem_append_right _ List.mem_cons_self) last.slashFree
      · cases more with
        | nil =>
            refine ⟨names, [last], rfl, by simp, String.toList_inj.mp ?_⟩
            rw [hupper, List.append_nil]
        | cons c more =>
            obtain ⟨rfl, hmore⟩ := List.cons.inj hlast
            have hnames : down names = path ++ "/" ++ String.ofList more := by
              apply String.toList_inj.mp
              simp [String.toList_append, hupper]
            obtain ⟨upper, lower, rfl, hlower, hpath⟩ := ih hnames
            exact ⟨upper, lower ++ [last], by simp, by simp, hpath⟩

/-- The nodes above a node are all that its path goes on from with a slash, but for the root. -/
theorem mem_ancestors_down_iff {names : List NodeName} {path : String} :
    path ∈ ancestors (down names) ↔ path ≠ "" ∧ ∃ rest, down names = path ++ "/" ++ rest := by
  rw [mem_ancestors (segments_down names)]
  constructor
  · rintro ⟨upper, lower, hupper, hlower, rfl, rfl⟩
    refine ⟨fun hroot => hupper (down_inj.mp hroot), ?_⟩
    obtain ⟨rest, hrest⟩ := Option.isSome_iff_exists.mp (isSome_below?_down.mpr
      ⟨List.prefix_append upper lower, fun hall => hlower (List.self_eq_append_right.mp hall)⟩)
    exact ⟨rest, below?_eq_some.mp hrest⟩
  · rintro ⟨hpath, rest, hbelow⟩
    obtain ⟨upper, lower, rfl, hlower, rfl⟩ := exists_upper_of_below hbelow
    refine ⟨upper, lower, ?_, hlower, rfl, rfl⟩
    rintro rfl
    exact hpath rfl

/-- The path of a node directly below another goes on by its name. -/
theorem exists_name_of_child {names others : List NodeName} {name : String}
    (hchild : down others = down names ++ "/" ++ name) (hslash : '/' ∉ name.toList) :
    ∃ last : NodeName, last.text = name ∧ others = names ++ [last] := by
  have hsegments := congrArg segments hchild
  rw [segments_append, segments_down, segments_down, segments_slashFree hslash] at hsegments
  split at hsegments
  next hempty =>
    -- Nothing is left after the slash, but no path of names ends in one.
    rw [List.append_nil, map_text_inj] at hsegments
    rw [hsegments] at hchild
    exact absurd hchild.symm (append_slash_ne _ _)
  next hempty =>
    refine ⟨⟨name, hempty, hslash⟩, rfl, ?_⟩
    rw [← map_text_inj, hsegments, List.map_append, List.map_singleton]

end Simulated

/-! ## The paths of groups and owners -/

namespace NodePath

/-- The name of the node under which all groups register. -/
def consumersName : NodeName :=
  ⟨"consumers", by decide, by decide⟩

/-- The name of the node of a group under which its topics stand. -/
def ownersName : NodeName :=
  ⟨"owners", by decide, by decide⟩

theorem groups_down (root : List NodeName) :
    groups (down root) = down (root ++ [consumersName]) := by
  rw [down_append_singleton, String.append_assoc]
  rfl

theorem group_down (root : List NodeName) (name : NodeName) :
    group (down root) name.text = down (root ++ [consumersName, name]) := by
  rw [group, groups_down, ← down_append_singleton, List.append_assoc]
  rfl

theorem owners_down (root : List NodeName) (name topic : NodeName) :
    owners (down root) name.text topic.text =
      down (root ++ [consumersName, name, ownersName, topic]) := by
  have hslashes : "/owners/" = "/" ++ ownersName.text ++ "/" := rfl
  rw [owners, group_down, hslashes]
  simp only [← String.append_assoc]
  rw [← down_append_singleton, ← down_append_singleton]
  simp only [List.append_assoc, List.cons_append, List.nil_append]

theorem owner_down (root : List NodeName) (name topic node : NodeName) :
    owner (down root) name.text topic.text node.text =
      down (root ++ [consumersName, name, ownersName, topic, node]) := by
  rw [owner, owners_down, ← down_append_singleton, List.append_assoc]
  rfl

end NodePath

end ConsumerGroups
