/-! # Decimal integers

Reading decimal text: one optional sign, then ASCII digits and nothing else. Leading zeros are
allowed, so a number has many spellings; `toString` writes the one without a plus sign and
without leading zeros.
-/

namespace ConsumerGroups.Text

/-- The value of a non-empty run of ASCII digits, after the value of the digits before it. -/
def readDigits? : Nat → List Char → Option Nat
  | value, [] => some value
  | value, c :: rest =>
    if c.isDigit then readDigits? (value * 10 + (c.toNat - '0'.toNat)) rest else none

/-- A natural number: at least one ASCII digit and nothing else. -/
def readNat? : List Char → Option Nat
  | [] => none
  | digits => readDigits? 0 digits

/-- An integer: a natural number after at most one sign. -/
def readInt? : List Char → Option Int
  | '+' :: digits => (readNat? digits).map Int.ofNat
  | '-' :: digits => (readNat? digits).map fun n => -Int.ofNat n
  | digits => (readNat? digits).map Int.ofNat

/-- An integer of 32 bits; a value out of range has no reading. -/
def readInt32? (text : String) : Option Int32 :=
  (readInt? text.toList).bind fun value =>
    if Int32.minValue.toInt ≤ value ∧ value ≤ Int32.maxValue.toInt then some (Int32.ofInt value)
    else none

end ConsumerGroups.Text
