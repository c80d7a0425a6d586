/-! # UTF-8

Decoding works byte by byte. A sequence that breaks off, because the next byte cannot continue
it or the input ends, counts as one faulty unit, and so does a byte that can start nothing. A
strict reader refuses faulty units; a lenient one shows each as U+FFFD.
-/

namespace ConsumerGroups.Text

/-- A sequence that has begun: the bits read so far, how many bytes are still to come, and the
range that the next of them must lie in. -/
structure Utf8Partial where
  bits : Nat
  missing : Nat
  low : UInt8 := 0x80
  high : UInt8 := 0xBF

/-- What a byte at the start of a sequence is: a whole character, the start of a longer
sequence, or nothing. The narrower second byte after `E0`, `ED`, `F0` and `F4` excludes
overlong forms, surrogates and code points past the last one. -/
def utf8Start (b : UInt8) : Option Char ⊕ Utf8Partial :=
  let n := b.toNat
  if n < 0x80 then .inl (some (Char.ofNat n))
  else if n < 0xC2 then .inl none
  else if n < 0xE0 then .inr { bits := n - 0xC0, missing := 1 }
  else if n = 0xE0 then .inr { bits := 0, missing := 2, low := 0xA0 }
  else if n = 0xED then .inr { bits := n - 0xE0, missing := 2, high := 0x9F }
  else if n < 0xF0 then .inr { bits := n - 0xE0, missing := 2 }
  else if n = 0xF0 then .inr { bits := 0, missing := 3, low := 0x90 }
  else if n < 0xF4 then .inr { bits := n - 0xF0, missing := 3 }
  else if n = 0xF4 then .inr { bits := n - 0xF0, missing := 3, high := 0x8F }
  else .inl none

/-- The units of a byte sequence, each a character or a fault, after a sequence that has
possibly begun. -/
def utf8UnitsAfter : Option Utf8Partial → List UInt8 → List (Option Char)
  | none, [] => []
  | some _, [] => [none]
  | none, b :: rest =>
    match utf8Start b with
    | .inl unit => unit :: utf8UnitsAfter none rest
    | .inr begun => utf8UnitsAfter (some begun) rest
  | some begun, b :: rest =>
    if begun.low ≤ b ∧ b ≤ begun.high then
      let bits := begun.bits * 64 + (b.toNat - 0x80)
      if begun.missing = 1 then some (Char.ofNat bits) :: utf8UnitsAfter none rest
      else utf8UnitsAfter (some { bits, missing := begun.missing - 1 }) rest
    else
      match utf8Start b with
      | .inl unit => none :: unit :: utf8UnitsAfter none rest
      | .inr fresh => none :: utf8UnitsAfter (some fresh) rest

def utf8Units (bytes : List UInt8) : List (Option Char) :=
  utf8UnitsAfter none bytes

/-- The text of a byte sequence, with U+FFFD for every faulty unit. -/
def decodeUtf8 (bytes : List UInt8) : String :=
  String.ofList ((utf8Units bytes).map (·.getD '\uFFFD'))

/-- The text of a byte sequence without faulty units. -/
def decodeUtf8? (bytes : List UInt8) : Option String :=
  ((utf8Units bytes).mapM id).map String.ofList

def encodeUtf8 (s : String) : List UInt8 :=
  s.toList.flatMap String.utf8EncodeChar

end ConsumerGroups.Text
