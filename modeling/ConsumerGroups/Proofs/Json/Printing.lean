import Mathlib.Data.List.Basic
import ConsumerGroups.Json.Printer
import ConsumerGroups.Proofs.Json.Grammar

/-! # What is printed is a spelling

The tokens that a value is written as spell the value. Texts and integers do, and arrays and
objects do if what is in them does.
-/

namespace ConsumerGroups.Json

/-- The characters that a value is written as. -/
def spelling (json : Json) : List Char :=
  (toTokens json).flatMap Token.spell

/-- A value whose characters spell it, whatever follows them. -/
def Printed (json : Json) : Prop :=
  ∀ rest, Spells (.value json) (spelling json ++ rest) rest

theorem Printed.element {json : Json} (hjson : Printed json) (rest : List Char) :
    Spells (.element json) (spelling json ++ rest) rest :=
  .element .done (hjson rest) .done

/-! ## Texts and integers -/

/-- The spelling of a character is that of a piece which stands for it. -/
theorem exists_piece (c : Char) : ∃ piece,
    (∀ input pieces rest, Pieces input pieces rest →
      Pieces (spellChar c ++ input) (piece :: pieces) rest) ∧
    ∀ pieces chars, StandFor pieces chars → StandFor (piece :: pieces) (c :: chars) := by
  unfold spellChar
  split
  case h_8 =>
    rename_i hquote hslash _ _ _ _ _
    split
    · have hcode : 0 * 16 ^ 3 + 0 * 16 ^ 2 + c.toNat / 16 * 16 + c.toNat % 16 = c.toNat := by omega
      have hzero : IsHexDigit '0' 0 := ⟨by decide, .inl rfl⟩
      have hupper : IsHexDigit (Nat.digitChar (c.toNat / 16)) (c.toNat / 16) := ⟨by omega, .inl rfl⟩
      have hlower : IsHexDigit (Nat.digitChar (c.toNat % 16)) (c.toNat % 16) := ⟨by omega, .inl rfl⟩
      refine ⟨.unit c.toNat, fun input pieces rest hmore => ?_, fun pieces chars hmore => ?_⟩
      · have hunit := Pieces.unit hzero hzero hupper hlower hmore
        rw [hcode] at hunit
        exact hunit
      · have hcontrol : c.toNat < 0xD800 ∨ 0xE000 ≤ c.toNat := .inl (by omega)
        have hunit := StandFor.unit hcontrol hmore
        rwa [Char.ofNat_toNat] at hunit
    · exact ⟨.char c, fun input pieces rest hmore => .plain (by omega) hquote hslash hmore,
        fun pieces chars hmore => .char hmore⟩
  all_goals
    refine ⟨.char _, fun input pieces rest hmore => ?_, fun pieces chars hmore => .char hmore⟩
    exact .short (by decide) hmore

/-- A text is written as its content. -/
theorem text_spell (content : String) (rest : List Char) :
    Text (Token.spell (.text (some content)) ++ rest) (some content) rest := by
  have hchars (chars : List Char) : ∃ pieces,
      Pieces (chars.flatMap spellChar ++ '\x22' :: rest) pieces rest ∧ StandFor pieces chars := by
    induction chars with
    | nil => exact ⟨[], .close, .nil⟩
    | cons c more ih =>
        obtain ⟨piece, hpiece, hstands⟩ := exists_piece c
        obtain ⟨pieces, hpieces, hmore⟩ := ih
        refine ⟨piece :: pieces, ?_, hstands _ _ hmore⟩
        rw [List.flatMap_cons, List.append_assoc]
        exact hpiece _ _ _ hpieces
  obtain ⟨pieces, hpieces, hstands⟩ := hchars content.toList
  have hspell : Token.spell (.text (some content)) ++ rest =
      '\x22' :: (content.toList.flatMap spellChar ++ '\x22' :: rest) := by
    simp [Token.spell]
  rw [hspell]
  exact .proper hpieces hstands

theorem printed_ofString (content : String) : Printed (ofString content) := by
  intro rest
  have htext := text_spell content rest
  simpa [spelling, toTokens, ofString] using Spells.text htext

theorem printed_ofInt (n : Int) : Printed (ofInt n) := by
  intro rest
  have htail : IsTail (Numeral.ofInt n).tail := ⟨[], [], rfl, .absent, .absent⟩
  simpa [spelling, toTokens, ofInt, Token.spell, spellNumeral] using Spells.number htail

/-! ## Arrays and objects -/

/-- The items of an array spell themselves up to its closing bracket. -/
theorem spells_items {item : Json} {more : List Json} (hitem : Printed item)
    (hmore : ∀ later ∈ more, Printed later) (rest : List Char) :
    Spells (.items (item :: more))
      (spelling item ++ ((laterItemTokens more).flatMap Token.spell ++ rest)) rest := by
  induction more generalizing item with
  | nil => exact .lastItem (hitem.element _)
  | cons next more ih =>
    have hnext := ih (hmore next List.mem_cons_self)
      fun later hlater => hmore later (List.mem_cons_of_mem next hlater)
    have htokens : (laterItemTokens (next :: more)).flatMap Token.spell ++ rest =
        ',' :: (spelling next ++ ((laterItemTokens more).flatMap Token.spell ++ rest)) := by
      simp [laterItemTokens, spelling, Token.spell]
    rw [htokens]
    exact .item (hitem.element _) hnext

theorem printed_array {items : List Json} (hitems : ∀ item ∈ items, Printed item) :
    Printed (.array items) := by
  intro rest
  cases items with
  | nil => exact .emptyArray .done
  | cons item more =>
    have hspelling : spelling (.array (item :: more)) ++ rest =
        '[' :: (spelling item ++ ((laterItemTokens more).flatMap Token.spell ++ rest)) := by
      simp [spelling, toTokens, itemTokens, Token.spell]
    rw [hspelling]
    exact .array (spells_items (hitems item List.mem_cons_self)
      (fun later hlater => hitems later (List.mem_cons_of_mem item hlater)) rest)

/-- The members of an object spell themselves up to its closing brace. -/
theorem spells_members {member : String × Json} {more : List (String × Json)}
    (hmember : Printed member.2) (hmore : ∀ later ∈ more, Printed later.2) (rest : List Char) :
    Spells (.members ((member :: more).map fun member => (some member.1, member.2)))
      (Token.spell (.text (some member.1)) ++ ':' :: (spelling member.2 ++
        ((laterMemberTokens (more.map fun member => (some member.1, member.2))).flatMap
          Token.spell ++ rest))) rest := by
  induction more generalizing member with
  | nil => exact .lastMember (.member .done (text_spell member.1 _) .done (hmember.element _))
  | cons next more ih =>
    have hnext := ih (hmore next List.mem_cons_self)
      fun later hlater => hmore later (List.mem_cons_of_mem _ hlater)
    have htokens : (laterMemberTokens
        ((next :: more).map fun member => (some member.1, member.2))).flatMap Token.spell ++ rest =
        ',' :: (Token.spell (.text (some next.1)) ++ ':' :: (spelling next.2 ++
          ((laterMemberTokens (more.map fun member => (some member.1, member.2))).flatMap
            Token.spell ++ rest))) := by
      simp [laterMemberTokens, spelling, Token.spell]
    rw [htokens]
    exact .moreMembers (.member .done (text_spell member.1 _) .done (hmember.element _)) hnext

theorem printed_ofMembers {members : List (String × Json)}
    (hmembers : ∀ member ∈ members, Printed member.2) : Printed (ofMembers members) := by
  intro rest
  cases members with
  | nil => exact .emptyObject .done
  | cons member more =>
    have hspelling : spelling (ofMembers (member :: more)) ++ rest =
        '\x7b' :: (Token.spell (.text (some member.1)) ++ ':' :: (spelling member.2 ++
          ((laterMemberTokens (more.map fun member => (some member.1, member.2))).flatMap
            Token.spell ++ rest))) := by
      simp [ofMembers, spelling, toTokens, memberTokens, Token.spell]
    rw [hspelling]
    exact .object (spells_members (hmembers member List.mem_cons_self)
      (fun later hlater => hmembers later (List.mem_cons_of_mem member hlater)) rest)

/-- What a value is written as spells it and nothing else. -/
theorem Printed.isSpelling {json : Json} (hjson : Printed json) : IsSpelling json.render json := by
  have htext : json.render.toList = spelling json ++ [] := by
    rw [render, String.toList_ofList, List.append_nil]
    rfl
  rw [IsSpelling, htext]
  exact hjson.element []

end ConsumerGroups.Json
