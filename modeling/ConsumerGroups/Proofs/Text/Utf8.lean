import Mathlib.Data.List.Basic
import Mathlib.Data.String.Basic
import ConsumerGroups.Text.Utf8

/-! # Encoding text and decoding it back

The bytes of a character are read as one unit, which is the character, whatever follows them. So
a text is read back from its bytes, and the lenient reader shows no fault in it. Texts are in the
order of their bytes.
-/

namespace ConsumerGroups.Text

/-! ## Bytes that continue a sequence -/

/-- The byte that carries the last six bits of a number. -/
def tailByte (n : Nat) : UInt8 :=
  UInt8.ofNat (n % 64 + 128)

@[simp] theorem toNat_tailByte (n : Nat) : (tailByte n).toNat = n % 64 + 128 := by
  rw [tailByte, UInt8.toNat_ofNat']
  omega

/-- Whether a sequence that has begun can go on with a number's tail byte. -/
def Utf8Partial.Accepts (begun : Utf8Partial) (n : Nat) : Prop :=
  begun.low.toNat ≤ n % 64 + 128 ∧ n % 64 + 128 ≤ begun.high.toNat

theorem Utf8Partial.Accepts.le {begun : Utf8Partial} {n : Nat} (haccepts : begun.Accepts n) :
    begun.low ≤ tailByte n ∧ tailByte n ≤ begun.high := by
  rw [UInt8.le_iff_toNat_le, UInt8.le_iff_toNat_le, toNat_tailByte]
  exact haccepts

theorem Utf8Partial.Accepts.of_range {begun : Utf8Partial} (hlow : begun.low = 0x80)
    (hhigh : begun.high = 0xBF) (n : Nat) : begun.Accepts n := by
  unfold Accepts
  rw [hlow, hhigh]
  change 128 ≤ n % 64 + 128 ∧ n % 64 + 128 ≤ 191
  omega

theorem utf8UnitsAfter_lastByte {begun : Utf8Partial} {n : Nat} (hmissing : begun.missing = 1)
    (haccepts : begun.Accepts n) (rest : List UInt8) :
    utf8UnitsAfter (some begun) (tailByte n :: rest) =
      some (Char.ofNat (begun.bits * 64 + n % 64)) :: utf8UnitsAfter none rest := by
  rw [utf8UnitsAfter, if_pos haccepts.le]
  simp only [hmissing, if_true, toNat_tailByte, Nat.add_sub_cancel]

theorem utf8UnitsAfter_tailByte {begun : Utf8Partial} {n missing : Nat}
    (hmissing : begun.missing = missing + 2) (haccepts : begun.Accepts n) (rest : List UInt8) :
    utf8UnitsAfter (some begun) (tailByte n :: rest) =
      utf8UnitsAfter (some { bits := begun.bits * 64 + n % 64, missing := missing + 1 }) rest := by
  have hmore : missing + 2 ≠ 1 := by omega
  rw [utf8UnitsAfter, if_pos haccepts.le]
  simp only [hmissing, if_neg hmore, toNat_tailByte, Nat.add_sub_cancel]
  rfl

/-! ## Bytes that start a sequence -/

theorem utf8Start_one {n : Nat} (hhigh : n ≤ 0x7F) :
    utf8Start (UInt8.ofNat n) = .inl (some (Char.ofNat n)) := by
  have hbyte : (UInt8.ofNat n).toNat = n := by
    rw [UInt8.toNat_ofNat']
    omega
  simp only [utf8Start, hbyte]
  rw [if_pos (by omega)]

theorem utf8Start_two {n : Nat} (hlow : 0x7F < n) (hhigh : n ≤ 0x7FF) :
    utf8Start (UInt8.ofNat (n / 64 % 32 + 192)) = .inr { bits := n / 64, missing := 1 } := by
  have hbyte : (UInt8.ofNat (n / 64 % 32 + 192)).toNat = n / 64 + 192 := by
    rw [UInt8.toNat_ofNat']
    omega
  simp only [utf8Start, hbyte]
  rw [if_neg (by omega), if_neg (by omega), if_pos (by omega), Nat.add_sub_cancel]

/-- The second byte of three excludes the numbers that two bytes can carry, and the surrogates. -/
theorem utf8Start_three {n : Nat} (hlow : 0x7FF < n) (hhigh : n ≤ 0xFFFF)
    (hvalid : n.isValidChar) :
    ∃ begun, utf8Start (UInt8.ofNat (n / 4096 % 16 + 224)) = .inr begun ∧
      begun.bits = n / 4096 ∧ begun.missing = 2 ∧ begun.Accepts (n / 64) := by
  have hbyte : (UInt8.ofNat (n / 4096 % 16 + 224)).toNat = n / 4096 + 224 := by
    rw [UInt8.toNat_ofNat']
    omega
  simp only [utf8Start, hbyte]
  rw [if_neg (by omega), if_neg (by omega), if_neg (by omega)]
  by_cases hfirst : n / 4096 = 0
  · rw [if_pos (by omega)]
    refine ⟨_, rfl, hfirst.symm, rfl, ?_⟩
    change 160 ≤ n / 64 % 64 + 128 ∧ n / 64 % 64 + 128 ≤ 191
    omega
  rw [if_neg (by omega)]
  by_cases hsurrogates : n / 4096 = 13
  · rw [if_pos (by omega)]
    refine ⟨_, rfl, Nat.add_sub_cancel .., rfl, ?_⟩
    change 128 ≤ n / 64 % 64 + 128 ∧ n / 64 % 64 + 128 ≤ 159
    omega
  · rw [if_neg (by omega), if_pos (by omega)]
    exact ⟨_, rfl, Nat.add_sub_cancel .., rfl, .of_range rfl rfl _⟩

/-- The second byte of four excludes the numbers that three bytes can carry, and those past the
last character. -/
theorem utf8Start_four {n : Nat} (hlow : 0xFFFF < n) (hvalid : n.isValidChar) :
    ∃ begun, utf8Start (UInt8.ofNat (n / 262144 % 8 + 240)) = .inr begun ∧
      begun.bits = n / 262144 ∧ begun.missing = 3 ∧ begun.Accepts (n / 4096) := by
  have hbyte : (UInt8.ofNat (n / 262144 % 8 + 240)).toNat = n / 262144 + 240 := by
    rw [UInt8.toNat_ofNat']
    omega
  simp only [utf8Start, hbyte]
  rw [if_neg (by omega), if_neg (by omega), if_neg (by omega), if_neg (by omega),
    if_neg (by omega), if_neg (by omega)]
  by_cases hfirst : n / 262144 = 0
  · rw [if_pos (by omega)]
    refine ⟨_, rfl, hfirst.symm, rfl, ?_⟩
    change 144 ≤ n / 4096 % 64 + 128 ∧ n / 4096 % 64 + 128 ≤ 191
    omega
  rw [if_neg (by omega)]
  by_cases hinner : n / 262144 < 4
  · rw [if_pos (by omega)]
    exact ⟨_, rfl, Nat.add_sub_cancel .., rfl, .of_range rfl rfl _⟩
  · rw [if_neg (by omega), if_pos (by omega)]
    refine ⟨_, rfl, Nat.add_sub_cancel .., rfl, ?_⟩
    change 128 ≤ n / 4096 % 64 + 128 ∧ n / 4096 % 64 + 128 ≤ 143
    omega

/-! ## Characters and texts -/

/-- The bytes of a character are one unit. -/
theorem utf8UnitsAfter_encodeChar (c : Char) (rest : List UInt8) :
    utf8UnitsAfter none (String.utf8EncodeChar c ++ rest) =
      some c :: utf8UnitsAfter none rest := by
  have hvalid : c.val.toNat.isValidChar := c.valid
  have hback : Char.ofNat c.val.toNat = c := Char.ofNat_toNat c
  generalize hn : c.val.toNat = n at hvalid hback
  have hencode : String.utf8EncodeChar c =
      if n ≤ 0x7F then [UInt8.ofNat n]
      else if n ≤ 0x7FF then [UInt8.ofNat (n / 64 % 32 + 192), tailByte n]
      else if n ≤ 0xFFFF then
        [UInt8.ofNat (n / 4096 % 16 + 224), tailByte (n / 64), tailByte n]
      else
        [UInt8.ofNat (n / 262144 % 8 + 240), tailByte (n / 4096), tailByte (n / 64),
          tailByte n] := by
    rw [← hn]
    rfl
  rw [hencode]
  by_cases hone : n ≤ 0x7F
  · rw [if_pos hone, List.singleton_append, utf8UnitsAfter, utf8Start_one hone, hback]
  rw [if_neg hone]
  by_cases htwo : n ≤ 0x7FF
  · have hbits : n / 64 * 64 + n % 64 = n := by omega
    rw [if_pos htwo, List.cons_append, List.singleton_append, utf8UnitsAfter,
      utf8Start_two (Nat.not_le.mp hone) htwo]
    dsimp only
    rw [utf8UnitsAfter_lastByte rfl (.of_range rfl rfl n), hbits, hback]
  rw [if_neg htwo]
  by_cases hthree : n ≤ 0xFFFF
  · obtain ⟨begun, hstart, hbits, hmissing, haccepts⟩ :=
      utf8Start_three (Nat.not_le.mp htwo) hthree hvalid
    have hlast : (n / 4096 * 64 + n / 64 % 64) * 64 + n % 64 = n := by omega
    rw [if_pos hthree, List.cons_append, List.cons_append, List.singleton_append, utf8UnitsAfter,
      hstart]
    dsimp only
    rw [utf8UnitsAfter_tailByte hmissing haccepts,
      utf8UnitsAfter_lastByte rfl (.of_range rfl rfl n), hbits, hlast, hback]
  · obtain ⟨begun, hstart, hbits, hmissing, haccepts⟩ :=
      utf8Start_four (Nat.not_le.mp hthree) hvalid
    have hlast : ((n / 262144 * 64 + n / 4096 % 64) * 64 + n / 64 % 64) * 64 + n % 64 = n := by
      omega
    rw [if_neg hthree, List.cons_append, List.cons_append, List.cons_append,
      List.singleton_append, utf8UnitsAfter, hstart]
    dsimp only
    rw [utf8UnitsAfter_tailByte hmissing haccepts,
      utf8UnitsAfter_tailByte rfl (.of_range rfl rfl (n / 64)),
      utf8UnitsAfter_lastByte rfl (.of_range rfl rfl n), hbits, hlast, hback]

theorem utf8Units_encodeUtf8 (text : String) :
    utf8Units (encodeUtf8 text) = text.toList.map some := by
  unfold utf8Units encodeUtf8
  induction text.toList with
  | nil => rfl
  | cons c rest ih => rw [List.flatMap_cons, utf8UnitsAfter_encodeChar, ih, List.map_cons]

/-- A text is read back from its bytes. -/
theorem decodeUtf8_encodeUtf8 (text : String) : decodeUtf8 (encodeUtf8 text) = text := by
  rw [decodeUtf8, utf8Units_encodeUtf8, List.map_map]
  change String.ofList (text.toList.map id) = text
  rw [List.map_id, String.ofList_toList]

/-! ## The order of bytes -/

/-- Of two characters the greater has the greater bytes, whatever follows them. -/
theorem utf8EncodeChar_lt {c d : Char} (hlt : c < d) (rest more : List UInt8) :
    String.utf8EncodeChar c ++ rest < String.utf8EncodeChar d ++ more := by
  have hvalues : c.val.toNat < d.val.toNat := hlt
  have hbound : d.val.toNat < 0x110000 := by
    rcases d.valid with hvalid | hvalid <;> omega
  simp only [String.utf8EncodeChar]
  generalize c.val.toNat = n at hvalues ⊢
  generalize d.val.toNat = m at hvalues hbound ⊢
  have htail (k : Nat) : (k % 64 + 128) % 256 = k % 64 + 128 := by omega
  have hlead (k : Nat) : (k % 8 + 240) % 256 = k % 8 + 240 := by omega
  by_cases hfour : 65535 < n
  · -- Both have four bytes, and the first that differ carry the highest bits that do.
    have hsixths (k : Nat) : k / 64 / 64 = k / 4096 ∧ k / 4096 / 64 = k / 262144 := by
      rw [Nat.div_div_eq_div_mul, Nat.div_div_eq_div_mul]
      exact ⟨rfl, rfl⟩
    have hn := hsixths n
    have hm := hsixths m
    rw [if_neg (by omega), if_neg (by omega), if_neg (by omega), if_neg (by omega),
      if_neg (by omega), if_neg (by omega)]
    simp only [List.cons_append, List.nil_append, List.cons_lt_cons_iff, UInt8.lt_iff_toNat_lt,
      ← UInt8.toNat_inj, UInt8.toNat_ofNat', htail, hlead]
    rcases Nat.lt_or_ge (n / 262144) (m / 262144) with hfirst | hfirst
    · omega
    · rcases Nat.lt_or_ge (n / 4096) (m / 4096) with hsecond | hsecond
      · omega
      · rcases Nat.lt_or_ge (n / 64) (m / 64) with hthird | hthird <;> omega
  · split_ifs <;>
      simp only [List.cons_append, List.nil_append, List.cons_lt_cons_iff, UInt8.lt_iff_toNat_lt,
        ← UInt8.toNat_inj, UInt8.toNat_ofNat', htail, hlead] <;> omega

theorem utf8EncodeChar_ne_nil (c : Char) : String.utf8EncodeChar c ≠ [] := by
  simp only [String.utf8EncodeChar]
  split_ifs <;> simp

/-- Of two texts the greater has the greater bytes. -/
theorem encodeUtf8_lt {first second : String} (hlt : first < second) :
    encodeUtf8 first < encodeUtf8 second := by
  rw [String.lt_iff_toList_lt] at hlt
  unfold encodeUtf8
  generalize first.toList = cs at hlt ⊢
  generalize second.toList = ds at hlt ⊢
  induction cs generalizing ds with
  | nil =>
      cases ds with
      | nil => simp at hlt
      | cons d ds =>
          obtain ⟨byte, bytes, hbytes⟩ := List.exists_cons_of_ne_nil (utf8EncodeChar_ne_nil d)
          rw [List.flatMap_cons, hbytes]
          exact List.nil_lt_cons _ _
  | cons c cs ih =>
      cases ds with
      | nil => simp at hlt
      | cons d ds =>
          rw [List.flatMap_cons, List.flatMap_cons]
          rcases List.cons_lt_cons_iff.mp hlt with hfirst | ⟨rfl, hrest⟩
          · exact utf8EncodeChar_lt hfirst _ _
          · exact List.append_left_lt (ih ds hrest)

end ConsumerGroups.Text
