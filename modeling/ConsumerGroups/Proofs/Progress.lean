import Mathlib.Data.List.Count
import ConsumerGroups.Progress.Json
import ConsumerGroups.Proofs.Json.Fields
import ConsumerGroups.Proofs.Json.Printing
import ConsumerGroups.Proofs.Json.Reading

/-! # Progress is read as it is written

A record is read from an object exactly if each of its five fields is given once, with its value
in the record, and from the array of the five values. So it is read from what it is written as,
in any order and with any further members, and nothing is read from an object or an array with a
flaw.
-/

namespace ConsumerGroups.Progress

open Json

/-- The members that a record is written as. -/
def members (progress : Progress) : List (String × Json) :=
  [("partition", .ofInt progress.partition.toInt),
   ("begin", .ofInt progress.oldest.toInt),
   ("end", .ofInt progress.newest.toInt),
   ("offset", .ofInt progress.mark.offset.toInt),
   ("metadata", .ofString progress.mark.metadata)]

theorem toJson_eq (progress : Progress) : progress.toJson = .ofMembers progress.members := rfl

theorem names_members (progress : Progress) : progress.members.map (·.1) = fieldNames := rfl

/-! ## What a record is read from -/

/-- The members of an object that gives every field of a record once, as it is written. -/
def GivenBy (progress : Progress) (members : List (String × Json)) : Prop :=
  ∀ field ∈ progress.members, given members field.1 = [field.2]

/-- The values that a record is read from. -/
inductive Holds (progress : Progress) : Json → Prop
  | object {members : List (String × Json)} (hgiven : progress.GivenBy members) :
      Holds progress (.ofMembers members)
  | array : Holds progress (.array (progress.members.map (·.2)))

theorem ofJson?_eq_required {json : Json} {progress : Progress} :
    ofJson? json = some progress ↔ ∃ fields, toFields? fieldNames json = some fields ∧
      fields.required? "partition" toInt32? = some progress.partition ∧
      fields.required? "begin" toInt64? = some progress.oldest ∧
      fields.required? "end" toInt64? = some progress.newest ∧
      fields.required? "offset" toInt64? = some progress.mark.offset ∧
      fields.required? "metadata" toString? = some progress.mark.metadata := by
  obtain ⟨partition, oldest, newest, offset, metadata⟩ := progress
  simp [ofJson?, Option.bind_eq_some_iff]

theorem ofJson?_ofMembers {members : List (String × Json)} {progress : Progress} :
    ofJson? (.ofMembers members) = some progress ↔ progress.GivenBy members := by
  have hfields (honce : ∀ name ∈ fieldNames, (given members name).length ≤ 1) :
      progress.GivenBy members ↔
        (known fieldNames members).required? "partition" toInt32? = some progress.partition ∧
        (known fieldNames members).required? "begin" toInt64? = some progress.oldest ∧
        (known fieldNames members).required? "end" toInt64? = some progress.newest ∧
        (known fieldNames members).required? "offset" toInt64? = some progress.mark.offset ∧
        (known fieldNames members).required? "metadata" toString? =
          some progress.mark.metadata := by
    rw [Fields.required?_eq_some (by decide) (honce _ (by decide)) toInt32?_eq_some,
      Fields.required?_eq_some (by decide) (honce _ (by decide)) toInt64?_eq_some,
      Fields.required?_eq_some (by decide) (honce _ (by decide)) toInt64?_eq_some,
      Fields.required?_eq_some (by decide) (honce _ (by decide)) toInt64?_eq_some,
      Fields.required?_eq_some (by decide) (honce _ (by decide)) toString?_eq_some]
    simp [GivenBy, Progress.members]
  rw [ofJson?_eq_required]
  constructor
  · rintro ⟨fields, hknown, hrequired⟩
    obtain ⟨rfl, honce⟩ := toFields?_ofMembers.mp hknown
    exact (hfields honce).mpr hrequired
  · intro hgiven
    have honce : ∀ name ∈ fieldNames, (given members name).length ≤ 1 := by
      rw [← progress.names_members]
      intro name hname
      obtain ⟨field, hfield, rfl⟩ := List.mem_map.mp hname
      rw [hgiven field hfield]
      exact Nat.le_refl 1
    exact ⟨_, toFields?_ofMembers.mpr ⟨rfl, honce⟩, (hfields honce).mp hgiven⟩

/-- Of the arrays, only that of the five values is read as the record. -/
theorem ofJson?_array {items : List Json} {progress : Progress} :
    ofJson? (.array items) = some progress ↔ items = progress.members.map (·.2) := by
  rw [ofJson?_eq_required]
  match items with
  | [_, _, _, _, _] =>
    simp [toFields?, fieldNames, Fields.required?, List.lookup_cons, Progress.members,
      toInt32?_eq_some, toInt64?_eq_some, toString?_eq_some]
  -- A short array lacks the last field at least.
  | [] | [_] | [_, _] | [_, _, _] | [_, _, _, _] =>
    simp [toFields?, fieldNames, Fields.required?, List.lookup_cons, Progress.members]
  | _ :: _ :: _ :: _ :: _ :: _ :: _ => simp [toFields?, fieldNames, Progress.members]

theorem ofJson?_eq_some {json : Json} {progress : Progress} :
    ofJson? json = some progress ↔ progress.Holds json := by
  constructor
  · intro hread
    obtain ⟨fields, hfields, -⟩ := ofJson?_eq_required.mp hread
    cases json with
    | array items =>
        obtain rfl := ofJson?_array.mp hread
        exact .array
    | object members =>
        obtain ⟨proper, hproper, -⟩ := Option.bind_eq_some_iff.mp hfields
        obtain rfl := properMembers?_eq_some.mp hproper
        exact .object (ofJson?_ofMembers.mp hread)
    | _ => cases hfields
  · rintro (hgiven | _)
    · exact ofJson?_ofMembers.mpr hgiven
    · exact ofJson?_array.mpr rfl

/-! ## What a record is not read from -/

/-- The values that a field can have: integers of its width, or texts. -/
inductive Suits : String → Json → Prop
  | partition {n : Int} (hlow : -2147483648 ≤ n) (hhigh : n ≤ 2147483647) :
      Suits "partition" (.ofInt n)
  | offset {name : String} {n : Int} (hname : name = "begin" ∨ name = "end" ∨ name = "offset")
      (hlow : -9223372036854775808 ≤ n) (hhigh : n ≤ 9223372036854775807) : Suits name (.ofInt n)
  | metadata (content : String) : Suits "metadata" (.ofString content)

/-- A value that no record is read from: an object that leaves out or repeats a field, or gives one
a value that it cannot have, or an array that is too short or too long. -/
inductive Flawed : Json → Prop
  | missing {members : List (Option String × Json)} {name : String} (hname : name ∈ fieldNames)
      (habsent : ∀ member ∈ members, member.1 ≠ some name) : Flawed (.object members)
  | repeated {members : List (Option String × Json)} {name : String} (hname : name ∈ fieldNames)
      (htwice : 2 ≤ (members.map (·.1)).count (some name)) : Flawed (.object members)
  | unsuited {members : List (Option String × Json)} {name : String} {json : Json}
      (hname : name ∈ fieldNames) (hmember : (some name, json) ∈ members)
      (hunsuited : ¬Suits name json) : Flawed (.object members)
  | length {items : List Json} (hlength : items.length ≠ 5) : Flawed (.array items)

theorem suits_members {progress : Progress} {field : String × Json}
    (hfield : field ∈ progress.members) : Suits field.1 field.2 := by
  simp only [members, List.mem_cons, List.not_mem_nil, or_false] at hfield
  rcases hfield with rfl | rfl | rfl | rfl | rfl
  · exact .partition (Int32.minValue_le_toInt _) (Int32.toInt_le _)
  · exact .offset (.inl rfl) (Int64.minValue_le_toInt _) (Int64.toInt_le _)
  · exact .offset (.inr (.inl rfl)) (Int64.minValue_le_toInt _) (Int64.toInt_le _)
  · exact .offset (.inr (.inr rfl)) (Int64.minValue_le_toInt _) (Int64.toInt_le _)
  · exact .metadata _

/-- The one value that an object gives for a field of a record suits the field. -/
theorem GivenBy.exists_suited {progress : Progress} {members : List (String × Json)}
    (hgiven : progress.GivenBy members) {name : String} (hname : name ∈ fieldNames) :
    ∃ json, given members name = [json] ∧ Suits name json := by
  rw [← progress.names_members] at hname
  obtain ⟨field, hfield, rfl⟩ := List.mem_map.mp hname
  exact ⟨field.2, hgiven field hfield, suits_members hfield⟩

/-- An object that gives a record has no flaw. -/
theorem Flawed.not_givenBy {members : List (String × Json)} (hflawed : Flawed (.ofMembers members))
    (progress : Progress) : ¬progress.GivenBy members := by
  intro hgiven
  generalize hjson : Json.ofMembers members = json at hflawed
  cases hflawed with
  | @missing _ name hname habsent =>
      obtain rfl := Json.object.inj hjson
      obtain ⟨value, hvalue, -⟩ := hgiven.exists_suited hname
      have hmember : (name, value) ∈ members := mem_given.mp (by simp [hvalue])
      exact habsent _ (List.mem_map_of_mem hmember) rfl
  | @repeated _ name hname htwice =>
      obtain rfl := Json.object.inj hjson
      obtain ⟨value, hvalue, -⟩ := hgiven.exists_suited hname
      have hcount := length_given members name
      rw [hvalue, ← List.count_map_of_injective _ _ fun _ _ => Option.some.inj, List.map_map]
        at hcount
      rw [List.map_map] at htwice
      have hsingle : 2 ≤ [value].length := hcount ▸ htwice
      exact Nat.not_succ_le_self 1 hsingle
  | @unsuited _ name json hname hmember hunsuited =>
      obtain rfl := Json.object.inj hjson
      obtain ⟨value, hvalue, hsuits⟩ := hgiven.exists_suited hname
      have hsame : json ∈ given members name := mem_given.mpr (by simpa using hmember)
      rw [hvalue, List.mem_singleton] at hsame
      exact hunsuited (hsame ▸ hsuits)
  | length => cases hjson

theorem Flawed.not_holds {json : Json} (hflawed : Flawed json) (progress : Progress) :
    ¬progress.Holds json := by
  rintro (hgiven | _)
  · exact hflawed.not_givenBy progress hgiven
  · cases hflawed with
    | length hlength => exact hlength rfl

/-! ## Texts -/

theorem printed_members (progress : Progress) :
    ∀ member ∈ progress.members, Printed member.2 := by
  simp only [members, List.forall_mem_cons, List.not_mem_nil, false_imp_iff, implies_true, and_true]
  exact ⟨printed_ofInt _, printed_ofInt _, printed_ofInt _, printed_ofInt _, printed_ofString _⟩

/-- What a text is read as depends on the value that it spells. -/
theorem read?_eq_some {text : String} {json : Json} (htext : IsSpelling text json)
    {progress : Progress} : read? text = some progress ↔ progress.Holds json := by
  rw [read?, htext.parse?_eq, Option.bind_some, ofJson?_eq_some]

/-- Members in any order, and others between them, give what they give without the others. -/
theorem GivenBy.of_perm {progress : Progress} {others members : List (String × Json)}
    (hothers : ∀ other ∈ others, other.1 ∉ fieldNames)
    (hperm : members.Perm (progress.members ++ others)) : progress.GivenBy members := by
  intro field hfield
  have hname : field.1 ∈ fieldNames := progress.names_members ▸ List.mem_map_of_mem hfield
  have hnone : given others field.1 = [] :=
    given_eq_nil.mpr fun other hother hsame => hothers other hother (hsame ▸ hname)
  have hown : given progress.members field.1 = [field.2] := by
    simp only [Progress.members, List.mem_cons, List.not_mem_nil, or_false] at hfield
    rcases hfield with rfl | rfl | rfl | rfl | rfl <;> rfl
  have hgiven := given_perm hperm field.1
  rw [given_append, hown, hnone, List.append_nil] at hgiven
  exact List.perm_singleton.mp hgiven

/-- A record is read from what it is written as. It is read as well from every spelling of the same
members in any order and with other members between them, whatever integers and characters it
holds. From a value with a flaw nothing is read, however it is spelled. What is read is determined
by the value: a record is read from the spellings of what holds it, and from no others. -/
theorem read_written :
    (∀ progress : Progress, read? progress.toJson.render = some progress) ∧
    (∀ (progress : Progress) (others members : List (String × Json)) (text : String),
      (∀ other ∈ others, other.1 ∉ fieldNames) → members.Perm (progress.members ++ others) →
      IsSpelling text (.ofMembers members) → read? text = some progress) ∧
    (∀ (text : String) (json : Json), IsSpelling text json → Flawed json → read? text = none) ∧
    ∀ (text : String) (json : Json), IsSpelling text json →
      ∀ progress : Progress, read? text = some progress ↔ progress.Holds json := by
  refine ⟨fun progress => ?_, fun progress others members text hothers hperm htext => ?_,
    fun text json htext hflawed => ?_, fun text json htext progress => read?_eq_some htext⟩
  · have hown : progress.GivenBy progress.members :=
      .of_perm (List.forall_mem_nil _) (.of_eq (List.append_nil _).symm)
    rw [toJson_eq]
    exact (read?_eq_some (printed_ofMembers progress.printed_members).isSpelling).mpr (.object hown)
  · exact (read?_eq_some htext).mpr (.object (.of_perm hothers hperm))
  · refine Option.eq_none_iff_forall_ne_some.mpr fun progress hread => ?_
    exact hflawed.not_holds progress ((read?_eq_some htext).mp hread)

/-- The extremes of the integers, and characters that are escaped. Without its first member the
object is refused. -/
theorem read_extremes_and_refuse_rest :
    let progress : Progress :=
      { partition := Int32.minValue, oldest := Int64.minValue, newest := Int64.maxValue
        mark := { offset := -1, metadata := "\"\\\n\x00" } }
    let others : List (String × Json) := [("lag", .null)]
    read? progress.toJson.render = some progress ∧
      read? (Json.ofMembers (others ++ progress.members.reverse)).render = some progress ∧
      read? (Json.ofMembers progress.members.tail).render = none ∧
      read? (Json.array []).render = none := by
  intro progress others
  have hmembers : ∀ member ∈ progress.members, Printed member.2 := progress.printed_members
  have hnull : Printed .null := fun _ => .nullLiteral
  obtain ⟨hwritten, hspelled, hflawed, -⟩ := read_written
  refine ⟨hwritten progress, ?_, ?_, ?_⟩
  · refine hspelled progress others _ _ ?_ ?_ (Printed.isSpelling (printed_ofMembers ?_))
    · simp [others, fieldNames]
    · exact List.perm_append_comm.trans ((List.reverse_perm _).append_right others)
    · simpa [others, hnull] using hmembers
  · refine hflawed _ _ (Printed.isSpelling (printed_ofMembers fun member hmember => ?_)) ?_
    · exact hmembers member (List.mem_of_mem_tail hmember)
    · exact @Flawed.missing _ "partition" (by decide) (by simp [members])
  · exact hflawed _ _ (Printed.isSpelling (printed_array (by simp))) (.length (by decide))

end ConsumerGroups.Progress
