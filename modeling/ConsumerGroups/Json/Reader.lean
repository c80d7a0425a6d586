import ConsumerGroups.Json.Token

/-! # Reading JSON

Tokens are read one at a time by a machine whose stack holds the containers that are still
open. Nesting therefore costs no recursion and has no limit. A comma must be followed by an
item or a member, and nothing may follow the value.
-/

namespace ConsumerGroups.Json

/-- A container that is still open, with what it holds so far, the latest first. -/
inductive Open
  | array (items : List Json)
  | object (members : List (Option String × Json))
  | member (members : List (Option String × Json)) (name : Option String)

/-- What the machine has just read or must read next. -/
inductive Phase
  /-- A value must come. -/
  | value
  /-- An array has begun: its first item or its end must come. -/
  | firstItem
  /-- An object has begun: its first name or its end must come. -/
  | firstName
  /-- A name must come. -/
  | name
  /-- A name has come: a colon must follow. -/
  | named (name : Option String)
  /-- A value has come. -/
  | done (json : Json)

/-- A machine between two tokens. -/
structure Machine where
  phase : Phase
  stack : List Open

namespace Machine

/-- The start of a value, if one begins with the token. -/
def beginValue (token : Token) (stack : List Open) : Option Machine :=
  match token with
  | .null => some ⟨.done .null, stack⟩
  | .bool b => some ⟨.done (.bool b), stack⟩
  | .number n => some ⟨.done (.number n), stack⟩
  | .text s => some ⟨.done (.text s), stack⟩
  | .openArray => some ⟨.firstItem, .array [] :: stack⟩
  | .openObject => some ⟨.firstName, .object [] :: stack⟩
  | _ => none

/-- The machine after a value inside its innermost container. -/
def afterValue (json : Json) (token : Token) (stack : List Open) : Option Machine :=
  match token, stack with
  | .comma, .array items :: outer => some ⟨.value, .array (json :: items) :: outer⟩
  | .comma, .member members name :: outer =>
    some ⟨.name, .object ((name, json) :: members) :: outer⟩
  | .closeArray, .array items :: outer => some ⟨.done (.array (json :: items).reverse), outer⟩
  | .closeObject, .member members name :: outer =>
    some ⟨.done (.object ((name, json) :: members).reverse), outer⟩
  | _, _ => none

/-- One step: the machine after a token, unless the token cannot stand there. -/
def step (machine : Machine) (token : Token) : Option Machine :=
  match machine.phase, token, machine.stack with
  | .value, token, stack => beginValue token stack
  | .firstItem, .closeArray, .array items :: outer => some ⟨.done (.array items.reverse), outer⟩
  | .firstItem, token, stack => beginValue token stack
  | .firstName, .closeObject, .object members :: outer =>
    some ⟨.done (.object members.reverse), outer⟩
  | .firstName, .text name, stack => some ⟨.named name, stack⟩
  | .name, .text name, stack => some ⟨.named name, stack⟩
  | .named name, .colon, .object members :: outer => some ⟨.value, .member members name :: outer⟩
  | .done json, token, stack => afterValue json token stack
  | _, _, _ => none

/-- The value that the machine has read, if nothing is open. -/
def result? (machine : Machine) : Option Json :=
  match machine.phase, machine.stack with
  | .done json, [] => some json
  | _, _ => none

end Machine

/-- The value that a sequence of tokens spells. -/
def ofTokens? (tokens : List Token) : Option Json :=
  (tokens.foldlM Machine.step ⟨.value, []⟩).bind Machine.result?

def parse? (text : String) : Option Json :=
  (tokens? text.toList).bind ofTokens?

end ConsumerGroups.Json
