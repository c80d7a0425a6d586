/-! # JSON values

A value keeps as much of its text as its readers may depend on: the members of an object stay
in order and may repeat a name, a number keeps its literal form, and a text whose escapes leave
half of a surrogate pair has no content but is a value all the same.
-/

namespace ConsumerGroups

/-- A number as it is spelled: its sign, its whole part, and the text of its fraction and
exponent. -/
structure Numeral where
  negative : Bool := false
  whole : Nat
  tail : List Char := []
deriving DecidableEq, Repr

namespace Numeral

def ofInt (n : Int) : Numeral :=
  { negative := n < 0, whole := n.natAbs }

/-- The value of an integer literal. A fraction or an exponent makes the numeral no integer,
and so does a sign before zero. -/
def toInt? (n : Numeral) : Option Int :=
  if n.tail.isEmpty then
    if n.negative then if n.whole = 0 then none else some (-Int.ofNat n.whole)
    else some (Int.ofNat n.whole)
  else none

end Numeral

inductive Json
  | null
  | bool (value : Bool)
  | number (value : Numeral)
  | text (content : Option String)
  | array (items : List Json)
  | object (members : List (Option String × Json))

namespace Json

def ofInt (n : Int) : Json :=
  .number (.ofInt n)

def ofString (s : String) : Json :=
  .text (some s)

def ofMembers (members : List (String × Json)) : Json :=
  .object (members.map fun member => (some member.1, member.2))

def toInt? : Json → Option Int
  | .number n => n.toInt?
  | _ => none

/-- The integer that a value holds, if it lies between two bounds. -/
def toIntWithin? (low high : Int) (json : Json) : Option Int :=
  json.toInt?.bind fun n => if low ≤ n ∧ n ≤ high then some n else none

def toInt32? (json : Json) : Option Int32 :=
  (json.toIntWithin? Int32.minValue.toInt Int32.maxValue.toInt).map Int32.ofInt

def toInt64? (json : Json) : Option Int64 :=
  (json.toIntWithin? Int64.minValue.toInt Int64.maxValue.toInt).map Int64.ofInt

/-- The natural number of 64 bits that a value holds. -/
def toUInt64? (json : Json) : Option UInt64 :=
  (json.toIntWithin? 0 18446744073709551615).map fun n => UInt64.ofNat n.toNat

def toString? : Json → Option String
  | .text content => content
  | _ => none

def toStrings? : Json → Option (List String)
  | .array items => items.mapM toString?
  | _ => none

end Json

end ConsumerGroups
