import ConsumerGroups.Json.Basic

/-! # JSON tokens

A JSON text is a sequence of tokens with blanks between them. Texts and numbers are checked in
full while they are read, so that what is skipped later is known to be well formed.
-/

namespace ConsumerGroups.Json

inductive Token
  | openArray
  | closeArray
  | openObject
  | closeObject
  | comma
  | colon
  | null
  | bool (value : Bool)
  | number (value : Numeral)
  | text (content : Option String)
deriving DecidableEq, Repr

/-! ## Texts -/

/-- A piece of a text: a character, or a UTF-16 unit written as an escape. -/
inductive Piece
  | char (c : Char)
  | unit (code : Nat)
deriving DecidableEq, Repr

def hexDigit? (c : Char) : Option Nat :=
  if c.isDigit then some (c.toNat - '0'.toNat)
  else if 'a' ≤ c ∧ c ≤ 'f' then some (c.toNat - 'a'.toNat + 10)
  else if 'A' ≤ c ∧ c ≤ 'F' then some (c.toNat - 'A'.toNat + 10)
  else none

def hexUnit? (a b c d : Char) : Option Nat := do
  let a ← hexDigit? a
  let b ← hexDigit? b
  let c ← hexDigit? c
  let d ← hexDigit? d
  pure (((a * 16 + b) * 16 + c) * 16 + d)

/-- The character that a one-letter escape stands for. -/
def escaped? : Char → Option Char
  | '\x22' => some '\x22'
  | '\\' => some '\\'
  | '/' => some '/'
  | 'b' => some '\x08'
  | 'f' => some '\x0c'
  | 'n' => some '\n'
  | 'r' => some '\r'
  | 't' => some '\t'
  | _ => none

/-- The pieces of a text up to its closing quote, and what follows. Control characters must be
escaped. -/
def readPieces? : List Char → Option (List Piece × List Char)
  | [] => none
  | '\x22' :: rest => some ([], rest)
  | '\\' :: 'u' :: a :: b :: c :: d :: rest =>
    (hexUnit? a b c d).bind fun code =>
      (readPieces? rest).map fun (pieces, rest) => (.unit code :: pieces, rest)
  | '\\' :: letter :: rest =>
    (escaped? letter).bind fun c =>
      (readPieces? rest).map fun (pieces, rest) => (.char c :: pieces, rest)
  | c :: rest =>
    if c.toNat < 0x20 then none
    else (readPieces? rest).map fun (pieces, rest) => (.char c :: pieces, rest)

/-- Whether a unit is the first half of a surrogate pair. -/
def isHighSurrogate (code : Nat) : Bool := 0xD800 ≤ code && code < 0xDC00

def isLowSurrogate (code : Nat) : Bool := 0xDC00 ≤ code && code < 0xE000

/-- The characters of a sequence of pieces, after the first half of a surrogate pair if there
is one. Two escapes in a row make a pair; a half that stands alone has no character. -/
def joinPieces? : Option Nat → List Piece → Option (List Char)
  | none, [] => some []
  | some _, [] => none
  | none, .char c :: rest => (joinPieces? none rest).map (c :: ·)
  | some _, .char _ :: _ => none
  | none, .unit code :: rest =>
    if isHighSurrogate code then joinPieces? (some code) rest
    else if isLowSurrogate code then none
    else (joinPieces? none rest).map (Char.ofNat code :: ·)
  | some high, .unit low :: rest =>
    if isLowSurrogate low then
      let c := Char.ofNat (0x10000 + (high - 0xD800) * 0x400 + (low - 0xDC00))
      (joinPieces? none rest).map (c :: ·)
    else none

/-- The token of a text, after its opening quote. -/
def readText? (input : List Char) : Option (Token × List Char) :=
  (readPieces? input).map fun (pieces, rest) =>
    (.text ((joinPieces? none pieces).map String.ofList), rest)

/-! ## Numbers -/

/-- A run of at least one digit, and what follows. -/
def readDigits? (input : List Char) : Option (List Char × List Char) :=
  match input.takeWhile Char.isDigit with
  | [] => none
  | digits => some (digits, input.dropWhile Char.isDigit)

def digitsValue (digits : List Char) : Nat :=
  digits.foldl (fun value c => value * 10 + (c.toNat - '0'.toNat)) 0

/-- A whole part, which has no leading zero, and what follows. -/
def readWhole? : List Char → Option (Nat × List Char)
  | '0' :: rest => some (0, rest)
  | input => (readDigits? input).map fun (digits, rest) => (digitsValue digits, rest)

/-- The text of a fraction, if there is one, and what follows. -/
def readFraction? : List Char → Option (List Char × List Char)
  | '.' :: rest => (readDigits? rest).map fun (digits, rest) => ('.' :: digits, rest)
  | input => some ([], input)

/-- The text of an optional sign, and what follows. -/
def readSign : List Char → List Char × List Char
  | '+' :: rest => (['+'], rest)
  | '-' :: rest => (['-'], rest)
  | input => ([], input)

/-- The text of an exponent, if there is one, and what follows. -/
def readExponent? : List Char → Option (List Char × List Char)
  | [] => some ([], [])
  | c :: rest =>
    if c = 'e' ∨ c = 'E' then
      let (sign, rest) := readSign rest
      (readDigits? rest).map fun (digits, rest) => (c :: sign ++ digits, rest)
    else some ([], c :: rest)

/-- A numeral after its sign, and what follows. -/
def readUnsigned? (negative : Bool) (input : List Char) : Option (Token × List Char) := do
  let (whole, rest) ← readWhole? input
  let (fraction, rest) ← readFraction? rest
  let (exponent, rest) ← readExponent? rest
  pure (.number { negative, whole, tail := fraction ++ exponent }, rest)

/-! ## Token by token -/

/-- The token at the start of an input without leading blanks, and what follows. -/
def readToken? : List Char → Option (Token × List Char)
  | [] => none
  | '[' :: rest => some (.openArray, rest)
  | ']' :: rest => some (.closeArray, rest)
  | '\x7b' :: rest => some (.openObject, rest)
  | '\x7d' :: rest => some (.closeObject, rest)
  | ',' :: rest => some (.comma, rest)
  | ':' :: rest => some (.colon, rest)
  | 'n' :: 'u' :: 'l' :: 'l' :: rest => some (.null, rest)
  | 't' :: 'r' :: 'u' :: 'e' :: rest => some (.bool true, rest)
  | 'f' :: 'a' :: 'l' :: 's' :: 'e' :: rest => some (.bool false, rest)
  | '\x22' :: rest => readText? rest
  | '-' :: rest => readUnsigned? true rest
  | input => readUnsigned? false input

/-- Whether a character may stand between tokens. -/
def isBlank (c : Char) : Bool :=
  c = ' ' || c = '\t' || c = '\n' || c = '\r'

/-! ## Every token takes a character -/

theorem readPieces?_length {input rest : List Char} {pieces : List Piece}
    (hread : readPieces? input = some (pieces, rest)) : rest.length < input.length := by
  fun_induction readPieces? input generalizing pieces rest with
  | case1 => simp at hread
  | case2 tail => simp_all
  | case3 a b c d tail ih =>
    simp only [Option.bind_eq_some_iff, Option.map_eq_some_iff, Prod.mk.injEq] at hread
    obtain ⟨code, -, ⟨ps, r⟩, htail, -, rfl⟩ := hread
    have := ih htail
    simp only [List.length_cons]
    omega
  | case4 letter tail _ ih =>
    simp only [Option.bind_eq_some_iff, Option.map_eq_some_iff, Prod.mk.injEq] at hread
    obtain ⟨c, -, ⟨ps, r⟩, htail, -, rfl⟩ := hread
    have := ih htail
    simp only [List.length_cons]
    omega
  | case5 => simp at hread
  | case6 c tail _ _ _ _ ih =>
    simp only [Option.map_eq_some_iff, Prod.mk.injEq] at hread
    obtain ⟨⟨ps, r⟩, htail, -, rfl⟩ := hread
    have := ih htail
    simp only [List.length_cons]
    omega

theorem readDigits?_length {input digits rest : List Char}
    (hread : readDigits? input = some (digits, rest)) : rest.length < input.length := by
  have hsplit := congrArg List.length
    (List.takeWhile_append_dropWhile (p := Char.isDigit) (l := input))
  rw [List.length_append] at hsplit
  unfold readDigits? at hread
  split at hread
  · simp at hread
  · rename_i hsome
    simp only [Option.some.injEq, Prod.mk.injEq] at hread
    have hlength := List.length_pos_iff.mpr hsome
    rw [← hread.2]
    omega

theorem readWhole?_length {input rest : List Char} {whole : Nat}
    (hread : readWhole? input = some (whole, rest)) : rest.length < input.length := by
  unfold readWhole? at hread
  split at hread
  · simp_all
  · simp only [Option.map_eq_some_iff, Prod.mk.injEq] at hread
    obtain ⟨⟨digits, tail⟩, hdigits, -, rfl⟩ := hread
    exact readDigits?_length hdigits

theorem readFraction?_length {input fraction rest : List Char}
    (hread : readFraction? input = some (fraction, rest)) : rest.length ≤ input.length := by
  unfold readFraction? at hread
  split at hread
  · simp only [Option.map_eq_some_iff, Prod.mk.injEq] at hread
    obtain ⟨⟨digits, tail⟩, hdigits, -, rfl⟩ := hread
    have := readDigits?_length hdigits
    simp only [List.length_cons]
    omega
  · simp_all

theorem readSign_length (input : List Char) : (readSign input).2.length ≤ input.length := by
  unfold readSign
  split <;> simp

theorem readExponent?_length {input exponent rest : List Char}
    (hread : readExponent? input = some (exponent, rest)) : rest.length ≤ input.length := by
  unfold readExponent? at hread
  split at hread
  · simp_all
  · rename_i c tail
    split at hread
    · simp only [Option.map_eq_some_iff, Prod.mk.injEq] at hread
      obtain ⟨⟨digits, after⟩, hdigits, -, rfl⟩ := hread
      have := readDigits?_length hdigits
      have := readSign_length tail
      simp only [List.length_cons]
      omega
    · simp_all

theorem readUnsigned?_length {negative : Bool} {input rest : List Char} {token : Token}
    (hread : readUnsigned? negative input = some (token, rest)) : rest.length < input.length := by
  simp only [readUnsigned?, bind, Option.bind_eq_some_iff, pure, Option.some.injEq,
    Prod.mk.injEq, Prod.exists] at hread
  obtain ⟨whole, r₁, hwhole, fraction, r₂, hfraction, exponent, r₃, hexponent, -, rfl⟩ := hread
  have := readWhole?_length hwhole
  have := readFraction?_length hfraction
  have := readExponent?_length hexponent
  omega

theorem readToken?_length {input rest : List Char} {token : Token}
    (hread : readToken? input = some (token, rest)) : rest.length < input.length := by
  unfold readToken? at hread
  split at hread
  case h_11 tail =>
    simp only [readText?, Option.map_eq_some_iff, Prod.mk.injEq, Prod.exists] at hread
    obtain ⟨pieces, r, hpieces, -, rfl⟩ := hread
    have := readPieces?_length hpieces
    simp only [List.length_cons]
    omega
  case h_12 tail =>
    have := readUnsigned?_length hread
    simp only [List.length_cons]
    omega
  case h_13 => exact readUnsigned?_length hread
  all_goals simp_all <;> omega

/-! ## The tokens of an input -/

def tokens? : List Char → Option (List Token)
  | [] => some []
  | c :: rest =>
    if isBlank c then tokens? rest
    else
      match hread : readToken? (c :: rest) with
      | none => none
      | some (token, rest') =>
        have : rest'.length < rest.length + 1 := readToken?_length hread
        (tokens? rest').map (token :: ·)
termination_by input => input.length

end ConsumerGroups.Json
