import Mathlib.Algebra.Group.Nat.Defs
import ConsumerGroups.Json.Token

/-! # The grammar of JSON

A value has many spellings: with blanks around it, with escapes for any of its characters, and
in capitals where an escape has letters. The grammar says which inputs start with a spelling of
a value. It does so without a reader, by one rule for each way to spell, and each rule leaves
what follows the spelling.
-/

namespace ConsumerGroups.Json

/-! ## Blanks and digits -/

/-- Blanks, up to what follows. -/
inductive Blanks : List Char → List Char → Prop
  | done {rest : List Char} : Blanks rest rest
  | more {c : Char} {input rest : List Char}
      (hblank : c = ' ' ∨ c = '\t' ∨ c = '\n' ∨ c = '\r') (hmore : Blanks input rest) :
      Blanks (c :: input) rest

/-- A text of digits, and of at least one. -/
def AreDigits (text : List Char) : Prop :=
  text ≠ [] ∧ ∀ c ∈ text, c.isDigit = true

/-- The text of an optional fraction. -/
inductive IsFraction : List Char → Prop
  | absent : IsFraction []
  | given {digits : List Char} (hdigits : AreDigits digits) : IsFraction ('.' :: digits)

/-- The text of an optional exponent. -/
inductive IsExponent : List Char → Prop
  | absent : IsExponent []
  | given {letter : Char} {sign digits : List Char} (hletter : letter = 'e' ∨ letter = 'E')
      (hsign : sign = [] ∨ sign = ['+'] ∨ sign = ['-']) (hdigits : AreDigits digits) :
      IsExponent (letter :: sign ++ digits)

/-- What a numeral may have after its whole part. -/
def IsTail (tail : List Char) : Prop :=
  ∃ fraction exponent, tail = fraction ++ exponent ∧ IsFraction fraction ∧ IsExponent exponent

/-! ## Texts -/

/-- A hexadecimal digit with its value, in either case. -/
def IsHexDigit (c : Char) (value : Nat) : Prop :=
  value < 16 ∧ (c = Nat.digitChar value ∨ c = (Nat.digitChar value).toUpper)

/-- The letters of short escapes, each with its character. -/
def shortEscapes : List (Char × Char) :=
  [('\x22', '\x22'), ('\\', '\\'), ('/', '/'), ('b', '\x08'), ('f', '\x0c'), ('n', '\n'),
    ('r', '\r'), ('t', '\t')]

/-- The pieces of a text after its opening quote, up to and with the closing quote. -/
inductive Pieces : List Char → List Piece → List Char → Prop
  | close {rest : List Char} : Pieces ('\x22' :: rest) [] rest
  | plain {c : Char} {input rest : List Char} {pieces : List Piece} (hprint : 0x20 ≤ c.toNat)
      (hquote : c ≠ '\x22') (hslash : c ≠ '\\') (hmore : Pieces input pieces rest) :
      Pieces (c :: input) (.char c :: pieces) rest
  | short {letter c : Char} {input rest : List Char} {pieces : List Piece}
      (hescape : (letter, c) ∈ shortEscapes) (hmore : Pieces input pieces rest) :
      Pieces ('\\' :: letter :: input) (.char c :: pieces) rest
  | unit {a b c d : Char} {i j k l : Nat} {input rest : List Char} {pieces : List Piece}
      (ha : IsHexDigit a i) (hb : IsHexDigit b j) (hc : IsHexDigit c k) (hd : IsHexDigit d l)
      (hmore : Pieces input pieces rest) :
      Pieces ('\\' :: 'u' :: a :: b :: c :: d :: input)
        (.unit (i * 16 ^ 3 + j * 16 ^ 2 + k * 16 + l) :: pieces) rest

/-- The characters that pieces stand for. Two units in a row may be the halves of one character;
a half by itself stands for nothing. -/
inductive StandFor : List Piece → List Char → Prop
  | nil : StandFor [] []
  | char {c : Char} {pieces : List Piece} {chars : List Char} (hmore : StandFor pieces chars) :
      StandFor (.char c :: pieces) (c :: chars)
  | unit {code : Nat} {pieces : List Piece} {chars : List Char}
      (hcode : code < 0xD800 ∨ 0xE000 ≤ code) (hmore : StandFor pieces chars) :
      StandFor (.unit code :: pieces) (Char.ofNat code :: chars)
  | pair {high low : Nat} {pieces : List Piece} {chars : List Char}
      (hhigh : 0xD800 ≤ high ∧ high < 0xDC00) (hlow : 0xDC00 ≤ low ∧ low < 0xE000)
      (hmore : StandFor pieces chars) :
      StandFor (.unit high :: .unit low :: pieces)
        (Char.ofNat (0x10000 + (high - 0xD800) * 0x400 + (low - 0xDC00)) :: chars)

/-- A text with its content. A text with half a character in it has none. -/
inductive Text : List Char → Option String → List Char → Prop
  | proper {input rest : List Char} {pieces : List Piece} {content : String}
      (hpieces : Pieces input pieces rest) (hcontent : StandFor pieces content.toList) :
      Text ('\x22' :: input) (some content) rest
  | broken {input rest : List Char} {pieces : List Piece} (hpieces : Pieces input pieces rest)
      (hcontent : ∀ chars, ¬StandFor pieces chars) : Text ('\x22' :: input) none rest

/-! ## Values -/

/-- The parts of a JSON text that contain one another. -/
inductive Part
  /-- A value, without blanks around it. -/
  | value (json : Json)
  /-- A value with blanks around it. -/
  | element (json : Json)
  /-- The items of an array, up to and with its closing bracket. -/
  | items (items : List Json)
  /-- A member of an object, with blanks around its name and its value. -/
  | member (name : Option String) (json : Json)
  /-- The members of an object, up to and with its closing brace. -/
  | members (members : List (Option String × Json))

/-- An input that starts with a spelling of a part, and what follows it. -/
inductive Spells : Part → List Char → List Char → Prop
  | nullLiteral {rest : List Char} :
      Spells (.value .null) ('n' :: 'u' :: 'l' :: 'l' :: rest) rest
  | trueLiteral {rest : List Char} :
      Spells (.value (.bool true)) ('t' :: 'r' :: 'u' :: 'e' :: rest) rest
  | falseLiteral {rest : List Char} :
      Spells (.value (.bool false)) ('f' :: 'a' :: 'l' :: 's' :: 'e' :: rest) rest
  | number {numeral : Numeral} {rest : List Char} (htail : IsTail numeral.tail) :
      Spells (.value (.number numeral))
        ((if numeral.negative then ['-'] else []) ++ Nat.toDigits 10 numeral.whole ++
          numeral.tail ++ rest) rest
  | text {content : Option String} {input rest : List Char} (htext : Text input content rest) :
      Spells (.value (.text content)) input rest
  | emptyArray {input rest : List Char} (hblanks : Blanks input (']' :: rest)) :
      Spells (.value (.array [])) ('[' :: input) rest
  | array {items : List Json} {input rest : List Char} (hitems : Spells (.items items) input rest) :
      Spells (.value (.array items)) ('[' :: input) rest
  | emptyObject {input rest : List Char} (hblanks : Blanks input ('\x7d' :: rest)) :
      Spells (.value (.object [])) ('\x7b' :: input) rest
  | object {members : List (Option String × Json)} {input rest : List Char}
      (hmembers : Spells (.members members) input rest) :
      Spells (.value (.object members)) ('\x7b' :: input) rest
  | element {json : Json} {input start stop rest : List Char} (hbefore : Blanks input start)
      (hvalue : Spells (.value json) start stop) (hafter : Blanks stop rest) :
      Spells (.element json) input rest
  | lastItem {json : Json} {input rest : List Char}
      (hitem : Spells (.element json) input (']' :: rest)) : Spells (.items [json]) input rest
  | item {json : Json} {items : List Json} {input more rest : List Char}
      (hitem : Spells (.element json) input (',' :: more)) (hmore : Spells (.items items) more rest) :
      Spells (.items (json :: items)) input rest
  | member {name : Option String} {json : Json} {input start stop more rest : List Char}
      (hbefore : Blanks input start) (hname : Text start name stop)
      (hcolon : Blanks stop (':' :: more)) (hvalue : Spells (.element json) more rest) :
      Spells (.member name json) input rest
  | lastMember {name : Option String} {json : Json} {input rest : List Char}
      (hmember : Spells (.member name json) input ('\x7d' :: rest)) :
      Spells (.members [(name, json)]) input rest
  | moreMembers {name : Option String} {json : Json} {members : List (Option String × Json)}
      {input more rest : List Char} (hmember : Spells (.member name json) input (',' :: more))
      (hmore : Spells (.members members) more rest) :
      Spells (.members ((name, json) :: members)) input rest

/-- A text that spells a value and nothing else. -/
def IsSpelling (text : String) (json : Json) : Prop :=
  Spells (.element json) text.toList []

end ConsumerGroups.Json
