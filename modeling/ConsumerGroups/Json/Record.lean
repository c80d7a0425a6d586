import ConsumerGroups.Json.Basic

/-! # Records in JSON

A record with named fields is given as an object, in any order and with any further members,
or as an array of its fields in their declared order. A field may be missing, but not given
twice, and every name of the object must be a proper text.
-/

namespace ConsumerGroups.Json

/-- The fields that a record was given. -/
abbrev Fields := List (String × Json)

/-- The members of an object, if all its names are proper texts. -/
def properMembers? (members : List (Option String × Json)) : Option Fields :=
  members.mapM fun member => member.1.map fun name => (name, member.2)

/-- The fields of a record with the given names. -/
def toFields? (names : List String) : Json → Option Fields
  | .array items => if items.length ≤ names.length then some (names.zip items) else none
  | .object members =>
    (properMembers? members).bind fun fields =>
      let known := fields.filter fun field => names.contains field.1
      if (known.map (·.1)).Nodup then some known else none
  | _ => none

namespace Fields

/-- A field that has to be there. -/
def required? {α : Type} (fields : Fields) (name : String) (read? : Json → Option α) :
    Option α :=
  (fields.lookup name).bind read?

/-- A field that has a default; one that is given must have a value of its kind. -/
def optional? {α : Type} (fields : Fields) (name : String) (default : α)
    (read? : Json → Option α) : Option α :=
  match fields.lookup name with
  | none => some default
  | some json => read? json

end Fields

end ConsumerGroups.Json
