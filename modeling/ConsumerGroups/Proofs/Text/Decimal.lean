import Mathlib.Data.List.Basic
import ConsumerGroups.Text.Decimal

/-! # Writing decimal integers and reading them back

An integer is written as an optional minus sign and digits, and reading the text gives the
integer back.
-/

namespace ConsumerGroups.Text

theorem readDigits?_eq_ofDigitChars {digits : List Char} (hdigits : ∀ c ∈ digits, c.isDigit = true)
    (value : Nat) : readDigits? value digits = some (Nat.ofDigitChars 10 digits value) := by
  induction digits generalizing value with
  | nil => rfl
  | cons c rest ih =>
      rw [readDigits?, if_pos (hdigits c List.mem_cons_self),
        ih fun other hother => hdigits other (List.mem_cons_of_mem c hother)]
      simp [Nat.ofDigitChars, Nat.mul_comm]

theorem isDigit_of_mem_repr {n : Nat} {c : Char} (hc : c ∈ n.repr.toList) : c.isDigit = true := by
  rw [Nat.toList_repr] at hc
  exact Nat.isDigit_of_mem_toDigits (by decide) (by decide) hc

/-- A natural number is read back from its digits. -/
theorem readNat?_repr (n : Nat) : readNat? n.repr.toList = some n := by
  have hread : readDigits? 0 n.repr.toList = some n := by
    rw [readDigits?_eq_ofDigitChars fun c => isDigit_of_mem_repr, Nat.toList_repr,
      Nat.ofDigitChars_toDigits (by decide) (by decide)]
  cases hdigits : n.repr.toList with
  | nil =>
      rw [Nat.toList_repr] at hdigits
      exact absurd hdigits Nat.toDigits_ne_nil
  | cons c rest =>
      rw [hdigits] at hread
      exact hread

theorem readInt?_repr (value : Int) : readInt? value.repr.toList = some value := by
  cases value with
  | ofNat n =>
      change readInt? n.repr.toList = _
      have hread := readNat?_repr n
      have hdigits : ∀ c ∈ n.repr.toList, c.isDigit = true := fun c => isDigit_of_mem_repr
      generalize n.repr.toList = digits at *
      unfold readInt?
      split
      · exact absurd (hdigits '+' List.mem_cons_self) (by decide)
      · exact absurd (hdigits '-' List.mem_cons_self) (by decide)
      · rw [hread]; rfl
  | negSucc n =>
      change readInt? ("-" ++ n.succ.repr).toList = _
      rw [String.toList_append]
      change (readNat? n.succ.repr.toList).map _ = _
      rw [readNat?_repr]
      rfl

/-- An integer of 32 bits is read back from its decimal text. -/
theorem readInt32?_toString (value : Int32) : readInt32? (toString value) = some value := by
  have htext : toString value = value.toInt.repr := rfl
  have hrange : Int32.minValue.toInt ≤ value.toInt ∧ value.toInt ≤ Int32.maxValue.toInt :=
    ⟨value.minValue_le_toInt, value.toInt_le⟩
  rw [htext, readInt32?, readInt?_repr, Option.bind_some, if_pos hrange, Int32.ofInt_toInt]

theorem mem_toString {value : Int32} {c : Char} (hc : c ∈ (toString value).toList) :
    c = '-' ∨ c.isDigit = true := by
  have htext : toString value = value.toInt.repr := rfl
  rw [htext] at hc
  cases hvalue : value.toInt with
  | ofNat n =>
      rw [hvalue] at hc
      exact .inr (isDigit_of_mem_repr hc)
  | negSucc n =>
      rw [hvalue] at hc
      rcases List.mem_append.mp (String.toList_append ▸ hc) with hsign | hdigit
      · exact .inl (List.mem_singleton.mp hsign)
      · exact .inr (isDigit_of_mem_repr hdigit)

theorem toString_ne_empty (value : Int32) : toString value ≠ "" := by
  intro hempty
  have hread := readInt32?_toString value
  rw [hempty] at hread
  cases hread

theorem toString_inj {value other : Int32} : toString value = toString other ↔ value = other := by
  refine ⟨fun hsame => ?_, fun hsame => hsame ▸ rfl⟩
  have hread := readInt32?_toString value
  rw [hsame, readInt32?_toString other] at hread
  exact (Option.some.inj hread).symm

end ConsumerGroups.Text
