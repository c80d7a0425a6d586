import ConsumerGroups.Json.Token

/-! # Writing JSON

A value is written as its tokens, each in its shortest spelling, without blanks. Only quotes,
backslashes and control characters are escaped.
-/

namespace ConsumerGroups.Json

mutual

def toTokens : Json → List Token
  | .null => [.null]
  | .bool b => [.bool b]
  | .number n => [.number n]
  | .text s => [.text s]
  | .array items => .openArray :: itemTokens items
  | .object members => .openObject :: memberTokens members

/-- The tokens of an array after its opening bracket. -/
def itemTokens : List Json → List Token
  | [] => [.closeArray]
  | item :: rest => toTokens item ++ laterItemTokens rest

/-- The tokens of an array after one of its items. -/
def laterItemTokens : List Json → List Token
  | [] => [.closeArray]
  | item :: rest => .comma :: toTokens item ++ laterItemTokens rest

/-- The tokens of an object after its opening brace. -/
def memberTokens : List (Option String × Json) → List Token
  | [] => [.closeObject]
  | (name, value) :: rest => .text name :: .colon :: toTokens value ++ laterMemberTokens rest

/-- The tokens of an object after one of its members. -/
def laterMemberTokens : List (Option String × Json) → List Token
  | [] => [.closeObject]
  | (name, value) :: rest =>
    .comma :: .text name :: .colon :: toTokens value ++ laterMemberTokens rest

end

def spellChar (c : Char) : List Char :=
  match c with
  | '\x22' => ['\\', '\x22']
  | '\\' => ['\\', '\\']
  | '\x08' => ['\\', 'b']
  | '\x0c' => ['\\', 'f']
  | '\n' => ['\\', 'n']
  | '\r' => ['\\', 'r']
  | '\t' => ['\\', 't']
  | _ =>
    if c.toNat < 0x20 then
      ['\\', 'u', '0', '0', Nat.digitChar (c.toNat / 16), Nat.digitChar (c.toNat % 16)]
    else
      [c]

def spellNumeral (n : Numeral) : List Char :=
  (if n.negative then ['-'] else []) ++ Nat.toDigits 10 n.whole ++ n.tail

/-- The spelling of a token. A text without content is spelled as half a surrogate pair. -/
def Token.spell : Token → List Char
  | openArray => ['[']
  | closeArray => [']']
  | openObject => ['\x7b']
  | closeObject => ['\x7d']
  | comma => [',']
  | colon => [':']
  | null => ['n', 'u', 'l', 'l']
  | bool true => ['t', 'r', 'u', 'e']
  | bool false => ['f', 'a', 'l', 's', 'e']
  | number n => spellNumeral n
  | text (some s) => '\x22' :: s.toList.flatMap spellChar ++ ['\x22']
  | text none => ['\x22', '\\', 'u', 'd', '8', '0', '0', '\x22']

def render (json : Json) : String :=
  String.ofList ((toTokens json).flatMap Token.spell)

end ConsumerGroups.Json
