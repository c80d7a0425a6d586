import ConsumerGroups.Settings.Json
import ConsumerGroups.Proofs.Json.Fields
import ConsumerGroups.Proofs.Json.Printing
import ConsumerGroups.Proofs.Json.Reading

/-! # Settings are read as they are written

An object gives settings if each of its sections and fields is given once, or left out where the
default stands. Every text that spells such an object is read as these settings, whatever else
the object holds. An object that misgives a section or a field is refused.
-/

namespace ConsumerGroups

open Json

/-! ## What an object gives -/

/-- A field that is written in one way only. -/
def WrittenAs {α : Type} (write : α → Json) (json : Json) (value : α) : Prop :=
  json = write value

/-- A value that a field is never written as: null, one of another kind, or one out of range. -/
def NeverWritten {α : Type} (write : α → Json) (json : Json) : Prop :=
  ∀ value, json ≠ write value

/-- A section that is an object which gives its settings. -/
def SectionGives {α : Type} (GivenBy : α → List (String × Json) → Prop) (json : Json)
    (settings : α) : Prop :=
  ∃ members, json = .ofMembers members ∧ GivenBy settings members

/-- A section that is null, or an object which misgives a field. -/
def SectionMisgives (MisgivenBy : List (String × Json) → Prop) (json : Json) : Prop :=
  json = .null ∨ ∃ members, json = .ofMembers members ∧ MisgivenBy members

structure ClusterSettings.GivenBy (settings : ClusterSettings) (members : List (String × Json)) :
    Prop where
  seedPeers : Gives members "seed_peers" ({} : ClusterSettings).seedPeers (WrittenAs ofStrings)
    settings.seedPeers
  clientId : Gives members "client_id" ({} : ClusterSettings).clientId (WrittenAs ofString)
    settings.clientId

inductive ClusterSettings.MisgivenBy (members : List (String × Json)) : Prop
  | seedPeers (hfield : Misgives members "seed_peers" (NeverWritten ofStrings))
  | clientId (hfield : Misgives members "client_id" (NeverWritten ofString))

structure RegistrySettings.GivenBy (settings : RegistrySettings)
    (members : List (String × Json)) : Prop where
  seedPeers : Gives members "seed_peers" ({} : RegistrySettings).seedPeers (WrittenAs ofStrings)
    settings.seedPeers
  chroot : Gives members "chroot" ({} : RegistrySettings).chroot (WrittenAs ofString)
    settings.chroot
  sessionTimeoutMs : Gives members "session_timeout_ms" ({} : RegistrySettings).sessionTimeoutMs
    (WrittenAs ofUInt64) settings.sessionTimeoutMs

inductive RegistrySettings.MisgivenBy (members : List (String × Json)) : Prop
  | seedPeers (hfield : Misgives members "seed_peers" (NeverWritten ofStrings))
  | chroot (hfield : Misgives members "chroot" (NeverWritten ofString))
  | sessionTimeoutMs (hfield : Misgives members "session_timeout_ms" (NeverWritten ofUInt64))

structure Settings.GivenBy (settings : Settings) (members : List (String × Json)) : Prop where
  cluster : Gives members "kafka" {} (SectionGives ClusterSettings.GivenBy) settings.cluster
  registry : Gives members "tree_store" {} (SectionGives RegistrySettings.GivenBy)
    settings.registry

inductive Settings.MisgivenBy (members : List (String × Json)) : Prop
  | cluster (hsection : Misgives members "kafka" (SectionMisgives ClusterSettings.MisgivenBy))
  | registry
      (hsection : Misgives members "tree_store" (SectionMisgives RegistrySettings.MisgivenBy))

/-! ## Fields -/

section
variable {json : Json}

theorem WrittenAs.toStrings? {contents : List String} (hwritten : WrittenAs ofStrings json contents) :
    json.toStrings? = some contents :=
  toStrings?_eq_some.mpr hwritten

theorem WrittenAs.toString? {content : String} (hwritten : WrittenAs ofString json content) :
    json.toString? = some content :=
  toString?_eq_some.mpr hwritten

theorem WrittenAs.toUInt64? {n : UInt64} (hwritten : WrittenAs ofUInt64 json n) :
    json.toUInt64? = some n :=
  toUInt64?_eq_some.mpr hwritten

theorem printed_ofStrings (contents : List String) : Printed (ofStrings contents) := by
  refine printed_array fun item hitem => ?_
  obtain ⟨content, -, rfl⟩ := List.mem_map.mp hitem
  exact printed_ofString content

/-- What a field is never written as is not read, if only what is written is. -/
theorem NeverWritten.not_read {α : Type} {write : α → Json} {read? : Json → Option α}
    (hread : ∀ {json value}, read? json = some value ↔ json = write value)
    (hnever : NeverWritten write json) : read? json = none :=
  Option.eq_none_iff_forall_ne_some.mpr fun value hvalue => hnever value (hread.mp hvalue)

end

/-! ## Sections -/

namespace ClusterSettings

theorem ofJson?_eq_some {json : Json} {settings : ClusterSettings} :
    ofJson? json = some settings ↔
      ∃ fields, toFields? ["seed_peers", "client_id"] json = some fields ∧
        fields.optional? "seed_peers" ({} : ClusterSettings).seedPeers toStrings? =
          some settings.seedPeers ∧
        fields.optional? "client_id" ({} : ClusterSettings).clientId Json.toString? =
          some settings.clientId := by
  obtain ⟨seedPeers, clientId⟩ := settings
  simp [ofJson?, Option.bind_eq_some_iff]

theorem GivenBy.ofJson? {settings : ClusterSettings} {members : List (String × Json)}
    (hgiven : settings.GivenBy members) : ofJson? (.ofMembers members) = some settings := by
  have honce : ∀ name ∈ ["seed_peers", "client_id"], (given members name).length ≤ 1 := by
    simp [hgiven.seedPeers.length_given, hgiven.clientId.length_given]
  exact ofJson?_eq_some.mpr ⟨_, toFields?_ofMembers.mpr ⟨rfl, honce⟩,
    hgiven.seedPeers.optional? (by simp) WrittenAs.toStrings?,
    hgiven.clientId.optional? (by simp) WrittenAs.toString?⟩

theorem MisgivenBy.not_read {members : List (String × Json)} (hmisgiven : MisgivenBy members) :
    ofJson? (.ofMembers members) = none := by
  refine Option.eq_none_iff_forall_ne_some.mpr fun settings hread => ?_
  obtain ⟨fields, hfields, hpeers, hclient⟩ := ofJson?_eq_some.mp hread
  cases hmisgiven with
  | seedPeers hfield =>
    exact hfield.not_read (by simp) (NeverWritten.not_read toStrings?_eq_some) hfields hpeers
  | clientId hfield =>
    exact hfield.not_read (by simp) (NeverWritten.not_read toString?_eq_some) hfields hclient

theorem printed_toJson (settings : ClusterSettings) : Printed settings.toJson := by
  refine printed_ofMembers ?_
  simp only [List.forall_mem_cons, List.not_mem_nil, false_imp_iff, implies_true, and_true]
  exact ⟨printed_ofStrings settings.seedPeers, printed_ofString settings.clientId⟩

/-- Written settings are an object that gives all their fields. -/
theorem sectionGives_toJson (settings : ClusterSettings) :
    SectionGives GivenBy settings.toJson settings := by
  refine ⟨_, rfl, ⟨.once ?_ rfl, .once ?_ rfl⟩⟩ <;> simp [given, ofStrings]

end ClusterSettings

namespace RegistrySettings

theorem ofJson?_eq_some {json : Json} {settings : RegistrySettings} :
    ofJson? json = some settings ↔
      ∃ fields, toFields? ["seed_peers", "chroot", "session_timeout_ms"] json = some fields ∧
        fields.optional? "seed_peers" ({} : RegistrySettings).seedPeers toStrings? =
          some settings.seedPeers ∧
        fields.optional? "chroot" ({} : RegistrySettings).chroot Json.toString? =
          some settings.chroot ∧
        fields.optional? "session_timeout_ms" ({} : RegistrySettings).sessionTimeoutMs
          Json.toUInt64? = some settings.sessionTimeoutMs := by
  obtain ⟨seedPeers, chroot, sessionTimeoutMs⟩ := settings
  simp [ofJson?, Option.bind_eq_some_iff]

theorem GivenBy.ofJson? {settings : RegistrySettings} {members : List (String × Json)}
    (hgiven : settings.GivenBy members) : ofJson? (.ofMembers members) = some settings := by
  have honce : ∀ name ∈ ["seed_peers", "chroot", "session_timeout_ms"],
      (given members name).length ≤ 1 := by
    simp [hgiven.seedPeers.length_given, hgiven.chroot.length_given,
      hgiven.sessionTimeoutMs.length_given]
  exact ofJson?_eq_some.mpr ⟨_, toFields?_ofMembers.mpr ⟨rfl, honce⟩,
    hgiven.seedPeers.optional? (by simp) WrittenAs.toStrings?,
    hgiven.chroot.optional? (by simp) WrittenAs.toString?,
    hgiven.sessionTimeoutMs.optional? (by simp) WrittenAs.toUInt64?⟩

theorem MisgivenBy.not_read {members : List (String × Json)} (hmisgiven : MisgivenBy members) :
    ofJson? (.ofMembers members) = none := by
  refine Option.eq_none_iff_forall_ne_some.mpr fun settings hread => ?_
  obtain ⟨fields, hfields, hpeers, hchroot, htimeout⟩ := ofJson?_eq_some.mp hread
  cases hmisgiven with
  | seedPeers hfield =>
    exact hfield.not_read (by simp) (NeverWritten.not_read toStrings?_eq_some) hfields hpeers
  | chroot hfield =>
    exact hfield.not_read (by simp) (NeverWritten.not_read toString?_eq_some) hfields hchroot
  | sessionTimeoutMs hfield =>
    exact hfield.not_read (by simp) (NeverWritten.not_read toUInt64?_eq_some) hfields htimeout

theorem printed_toJson (settings : RegistrySettings) : Printed settings.toJson := by
  refine printed_ofMembers ?_
  simp only [List.forall_mem_cons, List.not_mem_nil, false_imp_iff, implies_true, and_true]
  exact ⟨printed_ofStrings settings.seedPeers, printed_ofString settings.chroot,
    printed_ofInt settings.sessionTimeoutMs.toNat⟩

/-- Written settings are an object that gives all their fields. -/
theorem sectionGives_toJson (settings : RegistrySettings) :
    SectionGives GivenBy settings.toJson settings := by
  refine ⟨_, rfl, ⟨.once ?_ rfl, .once ?_ rfl, .once ?_ rfl⟩⟩ <;>
    simp [given, ofStrings, ofUInt64]

end RegistrySettings

/-! ## Settings -/

namespace Settings

theorem ofJson?_eq_some {json : Json} {settings : Settings} :
    ofJson? json = some settings ↔
      ∃ fields, toFields? ["kafka", "tree_store"] json = some fields ∧
        fields.optional? "kafka" {} ClusterSettings.ofJson? = some settings.cluster ∧
        fields.optional? "tree_store" {} RegistrySettings.ofJson? = some settings.registry := by
  obtain ⟨cluster, registry⟩ := settings
  simp [ofJson?, Option.bind_eq_some_iff]

theorem GivenBy.ofJson? {settings : Settings} {members : List (String × Json)}
    (hgiven : settings.GivenBy members) : ofJson? (.ofMembers members) = some settings := by
  have honce : ∀ name ∈ ["kafka", "tree_store"], (given members name).length ≤ 1 := by
    simp [hgiven.cluster.length_given, hgiven.registry.length_given]
  refine ofJson?_eq_some.mpr ⟨_, toFields?_ofMembers.mpr ⟨rfl, honce⟩,
    hgiven.cluster.optional? (by simp) ?_, hgiven.registry.optional? (by simp) ?_⟩
  · rintro _ cluster ⟨members, rfl, hcluster⟩
    exact hcluster.ofJson?
  · rintro _ registry ⟨members, rfl, hregistry⟩
    exact hregistry.ofJson?

theorem MisgivenBy.not_read {members : List (String × Json)} (hmisgiven : MisgivenBy members) :
    ofJson? (.ofMembers members) = none := by
  refine Option.eq_none_iff_forall_ne_some.mpr fun settings hread => ?_
  obtain ⟨fields, hfields, hcluster, hregistry⟩ := ofJson?_eq_some.mp hread
  cases hmisgiven with
  | cluster hsection =>
    refine hsection.not_read (by simp) ?_ hfields hcluster
    rintro _ (rfl | ⟨members, rfl, hfield⟩)
    · rfl
    · exact hfield.not_read
  | registry hsection =>
    refine hsection.not_read (by simp) ?_ hfields hregistry
    rintro _ (rfl | ⟨members, rfl, hfield⟩)
    · rfl
    · exact hfield.not_read

theorem printed_toJson (settings : Settings) : Printed settings.toJson := by
  refine printed_ofMembers ?_
  simp only [List.forall_mem_cons, List.not_mem_nil, false_imp_iff, implies_true, and_true]
  exact ⟨settings.cluster.printed_toJson, settings.registry.printed_toJson⟩

theorem read_of_givenBy {text : String} {members : List (String × Json)} {settings : Settings}
    (htext : IsSpelling text (.ofMembers members)) (hgiven : settings.GivenBy members)
    (hcheck : settings.check = .ok ()) : read text = .ok settings := by
  simp [read, htext.parse?_eq, hgiven.ofJson?, hcheck, Except.map]

theorem read_of_misgivenBy {text : String} {members : List (String × Json)}
    (htext : IsSpelling text (.ofMembers members)) (hmisgiven : MisgivenBy members) :
    read text = .error .malformed := by
  simp [read, htext.parse?_eq, hmisgiven.not_read]

theorem check_of_read {text : String} {settings : Settings} (hread : read text = .ok settings) :
    settings.check = .ok () := by
  unfold read at hread
  split at hread
  · cases hread
  · rename_i found hfound
    cases hcheck : found.check with
    | error fault => simp [hcheck, Except.map] at hread
    | ok checked =>
      have hsame : found = settings := by simpa [hcheck, Except.map] using hread
      rw [← hsame, hcheck]

theorem givenBy_toJson (settings : Settings) :
    ∃ members, settings.toJson = .ofMembers members ∧ settings.GivenBy members := by
  refine ⟨_, rfl, ⟨.once ?_ settings.cluster.sectionGives_toJson,
    .once ?_ settings.registry.sectionGives_toJson⟩⟩ <;> simp [given]

/-- Settings that pass the check are read from every spelling of an object that gives them, with
its members in any order, its escapes in any form, and other members between them. In particular
they are read from what they are written as. What is read passes the check, and an object that
repeats a section or a field, or gives one a value that it cannot have, is refused. -/
theorem read_exact :
    (∀ text members, ∀ settings : Settings, settings.check = .ok () →
      IsSpelling text (.ofMembers members) → settings.GivenBy members →
      read text = .ok settings) ∧
    (∀ settings : Settings, settings.check = .ok () →
      read settings.toJson.render = .ok settings) ∧
    (∀ text settings, read text = .ok settings → settings.check = .ok ()) ∧
    ∀ text members, IsSpelling text (.ofMembers members) → MisgivenBy members →
      read text = .error .malformed := by
  refine ⟨fun text members settings hcheck htext hgiven => read_of_givenBy htext hgiven hcheck,
    fun settings hcheck => ?_, fun text settings hread => check_of_read hread,
    fun text members htext hmisgiven => read_of_misgivenBy htext hmisgiven⟩
  obtain ⟨members, hjson, hgiven⟩ := settings.givenBy_toJson
  have htext := settings.printed_toJson.isSpelling
  rw [hjson] at htext ⊢
  exact read_of_givenBy htext hgiven hcheck

/-- An object with blanks in it, an escape that is not needed, and a member that is no setting. -/
theorem spells_chroot : IsSpelling
    "\x7b\"zone\":null,\n\"tree_store\":\x7b\"chroot\": \"\\/k\"\x7d\x7d"
    (.ofMembers [("zone", .null), ("tree_store", .ofMembers [("chroot", .ofString "/k")])]) := by
  have hinput : "\x7b\"zone\":null,\n\"tree_store\":\x7b\"chroot\": \"\\/k\"\x7d\x7d".toList =
      '\x7b' :: (Token.spell (.text (some "zone")) ++ ':' :: 'n' :: 'u' :: 'l' :: 'l' ::
        ',' :: '\n' :: (Token.spell (.text (some "tree_store")) ++ ':' ::
          '\x7b' :: (Token.spell (.text (some "chroot")) ++ ':' :: ' ' ::
            ['\x22', '\\', '/', 'k', '\x22', '\x7d', '\x7d']))) := by
    decide
  have hpath : Text ['\x22', '\\', '/', 'k', '\x22', '\x7d', '\x7d'] (some "/k")
      ['\x7d', '\x7d'] := by
    have hslash : ('/', '/') ∈ shortEscapes := by decide
    have hcontent : "/k".toList = ['/', 'k'] := by decide
    refine .proper (.short hslash (.plain (by decide) (by decide) (by decide) .close)) ?_
    rw [hcontent]
    exact .char (.char .nil)
  have hblank (rest : List Char) : Blanks (' ' :: rest) rest := .more (.inl rfl) .done
  have hline (rest : List Char) : Blanks ('\n' :: rest) rest := .more (.inr (.inr (.inl rfl))) .done
  have hnull (rest : List Char) : Spells (.value .null) ('n' :: 'u' :: 'l' :: 'l' :: rest) rest :=
    .nullLiteral
  have hzone (rest : List Char) := Spells.member .done (text_spell "zone" _) .done
    (.element .done (hnull rest) .done)
  have hchroot := Spells.member .done (text_spell "chroot" _) .done
    (.element (hblank _) (.text hpath) .done)
  have hstore := Spells.member (hline _) (text_spell "tree_store" _) .done
    (.element .done (.object (.lastMember hchroot)) .done)
  rw [IsSpelling, hinput]
  exact .element .done (.object (.moreMembers (hzone _) (.lastMember hstore))) .done

/-- Such an object is read as the settings that it gives. A section that comes twice is refused. -/
theorem read_chroot_and_refuse_twins :
    read "\x7b\"zone\":null,\n\"tree_store\":\x7b\"chroot\": \"\\/k\"\x7d\x7d" =
        .ok { registry := { chroot := "/k" } } ∧
      read ({} : Settings).toJson.render = .ok {} ∧
      Settings.check { registry := { chroot := "/k" } } = .ok () ∧
      read "\x7b\"kafka\":\x7b\x7d,\"kafka\":\x7b\x7d\x7d" = .error .malformed := by
  have hsection : RegistrySettings.GivenBy { chroot := "/k" } [("chroot", .ofString "/k")] :=
    ⟨.omitted (by decide), .once rfl rfl, .omitted (by decide)⟩
  have hgiven : Settings.GivenBy { registry := { chroot := "/k" } }
      [("zone", .null), ("tree_store", .ofMembers [("chroot", .ofString "/k")])] :=
    ⟨.omitted (by decide), .once rfl ⟨_, rfl, hsection⟩⟩
  have hread := read_exact.1 _ _ { registry := { chroot := "/k" } } (by decide) spells_chroot hgiven
  let twins : List (String × Json) := [("kafka", .ofMembers []), ("kafka", .ofMembers [])]
  have hnone : Printed (.ofMembers []) := printed_ofMembers (by simp)
  have htwins : Printed (.ofMembers twins) := printed_ofMembers (by simp [twins, hnone])
  have hrepeated : 2 ≤ (given twins "kafka").length := by decide
  exact ⟨hread, read_exact.2.1 {} (by decide), read_exact.2.2.1 _ _ hread,
    read_exact.2.2.2 _ twins htwins.isSpelling (.cluster (.repeated hrepeated))⟩

end Settings

end ConsumerGroups
