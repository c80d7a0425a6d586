import Mathlib.Data.List.Nodup
import ConsumerGroups.Json.Record

/-! # Fields of a record that is an object

The members of an object give a field if exactly one of them has its name, and leave it out if
none has. What a record reads from an object depends on nothing else: not on the order of the
members, and not on members of other names.
-/

namespace ConsumerGroups.Json

/-- The values that the members of an object have under a name. -/
def given (members : List (String × Json)) (name : String) : List Json :=
  (members.filter fun member => member.1 = name).map (·.2)

/-- The value of a field with a default: the one that is given, or else the default. -/
inductive Gives {α : Type} (members : List (String × Json)) (name : String) (default : α)
    (Means : Json → α → Prop) : α → Prop
  | omitted (hgiven : given members name = []) : Gives members name default Means default
  | once {json : Json} {value : α} (hgiven : given members name = [json])
      (hmeans : Means json value) : Gives members name default Means value

/-- A field that is given more than once, or given a value that it cannot have. -/
inductive Misgives (members : List (String × Json)) (name : String) (Spoils : Json → Prop) : Prop
  | repeated (hgiven : 2 ≤ (given members name).length)
  | spoiled {json : Json} (hgiven : json ∈ given members name) (hspoils : Spoils json)

theorem Gives.length_given {α : Type} {members : List (String × Json)} {name : String}
    {default value : α} {Means : Json → α → Prop} (hgives : Gives members name default Means value) :
    (given members name).length ≤ 1 := by
  cases hgives with
  | omitted hgiven => simp [hgiven]
  | once hgiven hmeans => simp [hgiven]

/-! ## The fields of an object -/

/-- The members of an object that are fields of a record with the given names. -/
def known (names : List String) (members : List (String × Json)) : Fields :=
  members.filter fun member => names.contains member.1

theorem properMembers?_map (members : List (String × Json)) :
    properMembers? (members.map fun member => (some member.1, member.2)) = some members := by
  induction members with
  | nil => rfl
  | cons member more ih =>
    rw [properMembers?] at ih ⊢
    simp [ih]

theorem properMembers?_eq_some {members : List (Option String × Json)} {fields : Fields} :
    properMembers? members = some fields ↔
      members = fields.map fun field => (some field.1, field.2) := by
  constructor
  · intro hproper
    induction members generalizing fields with
    | nil =>
        cases hproper
        rfl
    | cons member more ih =>
        obtain ⟨_ | name, json⟩ := member
        · simp [properMembers?] at hproper
        · rw [properMembers?, List.mapM_cons] at hproper
          simp only [Option.map_some, Option.bind_eq_bind, Option.bind_some,
            Option.bind_eq_some_iff, Option.pure_def, Option.some_inj] at hproper
          obtain ⟨later, hlater, rfl⟩ := hproper
          rw [ih hlater]
          rfl
  · rintro rfl
    exact properMembers?_map fields

/-- Other names do not matter for what is given under a known name. -/
theorem given_known {names : List String} {name : String} (hname : name ∈ names)
    (members : List (String × Json)) : given (known names members) name = given members name := by
  rw [given, given, known, List.filter_filter]
  congr 1
  refine List.filter_congr fun member _ => ?_
  by_cases heq : member.1 = name <;> simp [heq, hname]

theorem mem_given {members : List (String × Json)} {name : String} {json : Json} :
    json ∈ given members name ↔ (name, json) ∈ members := by
  simp [given]

theorem given_append (members others : List (String × Json)) (name : String) :
    given (members ++ others) name = given members name ++ given others name := by
  simp [given]

theorem given_eq_nil {members : List (String × Json)} {name : String} :
    given members name = [] ↔ ∀ member ∈ members, member.1 ≠ name := by
  simp [given, List.filter_eq_nil_iff]

theorem given_perm {members others : List (String × Json)} (hperm : members.Perm others)
    (name : String) : (given members name).Perm (given others name) :=
  (hperm.filter _).map _

theorem length_given (members : List (String × Json)) (name : String) :
    (given members name).length = (members.map (·.1)).count name := by
  rw [given, List.length_map, ← List.countP_eq_length_filter, List.count, List.countP_map]
  refine List.countP_congr fun member _ => ?_
  simp

theorem lookup_eq_head? (members : List (String × Json)) (name : String) :
    members.lookup name = (given members name).head? := by
  induction members with
  | nil => rfl
  | cons member more ih =>
    by_cases heq : member.1 = name
    · subst heq
      rw [List.lookup_cons_self]
      simp [given]
    · have hne : (name == member.1) = false := by simp [Ne.symm heq]
      rw [List.lookup_cons, hne, ih]
      simp [given, heq]

/-- A record has the known members of an object as its fields, and it has them only if none of
its names is repeated. -/
theorem toFields?_ofMembers {names : List String} {members : List (String × Json)} {fields : Fields} :
    toFields? names (ofMembers members) = some fields ↔
      fields = known names members ∧ ∀ name ∈ names, (given members name).length ≤ 1 := by
  have hnodup : ((known names members).map (·.1)).Nodup ↔
      ∀ name ∈ names, (given members name).length ≤ 1 := by
    rw [List.nodup_iff_count_le_one]
    refine ⟨fun hcount name hname => ?_, fun honce name => ?_⟩
    · rw [← given_known hname, length_given]
      exact hcount name
    · by_cases hname : name ∈ names
      · rw [← length_given, given_known hname]
        exact honce name hname
      · have habsent : name ∉ (known names members).map (·.1) := by
          simp [known, hname]
        rw [List.count_eq_zero.mpr habsent]
        exact Nat.zero_le 1
  have hfields : toFields? names (ofMembers members) =
      if ((known names members).map (·.1)).Nodup then some (known names members) else none := by
    simp only [ofMembers, toFields?, properMembers?_map, Option.bind_some]
    rfl
  rw [hfields, Option.ite_none_right_eq_some, hnodup, Option.some_inj, and_comm, eq_comm]

/-! ## One field -/

section
variable {α : Type} {names : List String} {members : List (String × Json)} {fields : Fields}
  {name : String} {default : α} {read? : Json → Option α}

/-- A field that is given, or may be left out, is read as its value. -/
theorem Gives.optional? {value : α} {Means : Json → α → Prop} (hname : name ∈ names)
    (hread : ∀ {json value}, Means json value → read? json = some value)
    (hgives : Gives members name default Means value) :
    (known names members).optional? name default read? = some value := by
  rw [Fields.optional?, lookup_eq_head?, given_known hname]
  cases hgives with
  | omitted hgiven => rw [hgiven]; rfl
  | once hgiven hmeans => rw [hgiven]; exact hread hmeans

/-- A field that has to be there is read as a value if it is given once, as the value is written. -/
theorem Fields.required?_eq_some {value : α} {written : Json} (hname : name ∈ names)
    (honce : (given members name).length ≤ 1)
    (hread : ∀ {json}, read? json = some value ↔ json = written) :
    (known names members).required? name read? = some value ↔ given members name = [written] := by
  rw [Fields.required?, lookup_eq_head?, given_known hname]
  match hlist : given members name with
  | [] => simp
  | [json] => simp [hread]
  | _ :: _ :: _ => simp [hlist] at honce

/-- No record is read from an object that misgives one of its fields. -/
theorem Misgives.not_read {Spoils : Json → Prop} (hname : name ∈ names)
    (hread : ∀ {json}, Spoils json → read? json = none) (hmisgives : Misgives members name Spoils)
    (hfields : toFields? names (ofMembers members) = some fields) {value : α} :
    fields.optional? name default read? ≠ some value := by
  obtain ⟨rfl, honce⟩ := toFields?_ofMembers.mp hfields
  have hlength := honce name hname
  cases hmisgives with
  | repeated hgiven => omega
  | @spoiled json hgiven hspoils =>
    -- A list of at most one value that holds this one holds nothing else.
    have hsingle : given members name = [json] := by
      match hlist : given members name with
      | [] => simp [hlist] at hgiven
      | [other] => simp_all
      | _ :: _ :: _ => simp [hlist] at hlength
    rw [Fields.optional?, lookup_eq_head?, given_known hname, hsingle]
    simp [hread hspoils]

end

/-! ## Texts, lists of texts and natural numbers -/

def ofStrings (contents : List String) : Json :=
  .array (contents.map ofString)

def ofUInt64 (n : UInt64) : Json :=
  ofInt n.toNat

theorem toString?_eq_some {json : Json} {content : String} :
    json.toString? = some content ↔ json = ofString content := by
  cases json <;> simp [toString?, ofString]

theorem toStrings?_eq_some {json : Json} {contents : List String} :
    json.toStrings? = some contents ↔ json = ofStrings contents := by
  have hitems (items : List Json) (contents : List String) :
      items.mapM toString? = some contents ↔ items = contents.map ofString := by
    induction items generalizing contents with
    | nil => cases contents <;> simp
    | cons item items ih =>
      rw [List.mapM_cons]
      cases contents with
      | nil => simp [Option.bind_eq_some_iff]
      | cons content contents => simp [Option.bind_eq_some_iff, toString?_eq_some, ih]
  cases json <;> simp [toStrings?, ofStrings, hitems]

/-- A numeral is read as an integer only if it is spelled as the integer is. -/
theorem toInt?_numeral {numeral : Numeral} {n : Int} :
    numeral.toInt? = some n ↔ numeral = .ofInt n := by
  obtain ⟨negative, whole, tail⟩ := numeral
  cases tail with
  | nil => cases negative <;> simp [Numeral.toInt?, Numeral.ofInt] <;> omega
  | cons c tail => simp [Numeral.toInt?, Numeral.ofInt]

theorem toInt?_eq_some {json : Json} {n : Int} : json.toInt? = some n ↔ json = ofInt n := by
  cases json <;> simp [toInt?, ofInt, toInt?_numeral]

theorem toIntWithin?_eq_some {low high n : Int} {json : Json} :
    json.toIntWithin? low high = some n ↔ json = ofInt n ∧ low ≤ n ∧ n ≤ high := by
  simp only [toIntWithin?, Option.bind_eq_some_iff, toInt?_eq_some, Option.ite_none_right_eq_some,
    Option.some_inj]
  constructor
  · rintro ⟨_, rfl, hwithin, rfl⟩
    exact ⟨rfl, hwithin⟩
  · rintro ⟨rfl, hwithin⟩
    exact ⟨n, rfl, hwithin, rfl⟩

theorem toInt32?_eq_some {json : Json} {n : Int32} :
    json.toInt32? = some n ↔ json = ofInt n.toInt := by
  simp only [toInt32?, Option.map_eq_some_iff, toIntWithin?_eq_some]
  constructor
  · rintro ⟨i, ⟨rfl, hlow, hhigh⟩, rfl⟩
    rw [Int32.toInt_ofInt_of_le hlow (Int.lt_add_one_of_le hhigh)]
  · rintro rfl
    exact ⟨n.toInt, ⟨rfl, n.minValue_le_toInt, n.toInt_le⟩, Int32.ofInt_toInt n⟩

theorem toInt64?_eq_some {json : Json} {n : Int64} :
    json.toInt64? = some n ↔ json = ofInt n.toInt := by
  simp only [toInt64?, Option.map_eq_some_iff, toIntWithin?_eq_some]
  constructor
  · rintro ⟨i, ⟨rfl, hlow, hhigh⟩, rfl⟩
    rw [Int64.toInt_ofInt_of_le hlow (Int.lt_add_one_of_le hhigh)]
  · rintro rfl
    exact ⟨n.toInt, ⟨rfl, n.minValue_le_toInt, n.toInt_le⟩, Int64.ofInt_toInt n⟩

theorem toUInt64?_eq_some {json : Json} {n : UInt64} :
    json.toUInt64? = some n ↔ json = ofUInt64 n := by
  simp only [toUInt64?, ofUInt64, toIntWithin?, Option.map_eq_some_iff, Option.bind_eq_some_iff,
    toInt?_eq_some, Option.ite_none_right_eq_some, Option.some_inj]
  constructor
  · rintro ⟨_, ⟨i, rfl, hwithin, rfl⟩, rfl⟩
    have hvalue : ((UInt64.ofNat i.toNat).toNat : Int) = i := by
      rw [UInt64.toNat_ofNat_of_lt' (by simp [UInt64.size]; omega)]
      omega
    rw [hvalue]
  · rintro rfl
    have hbound := n.toNat_lt
    exact ⟨n.toNat, ⟨n.toNat, rfl, ⟨by omega, by omega⟩, rfl⟩, by simp⟩

end ConsumerGroups.Json
