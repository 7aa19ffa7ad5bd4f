import FairMerge.Json.Value

/-! # Records in JSON

A record is written as an object with one member per field, in the order in which the fields are
declared. It is read from an object with the members in any order, where members of other names are
passed over and a field must not be given twice, and from an array of the values in the order of
the fields. -/

namespace FairMerge.Json

/-- The object with the given members. -/
def record (members : List (String × Json)) : Json :=
  object (members.map fun (name, value) => (some name, value))

/-- How often a field is given in an object. -/
def occurrences (members : List (Option String × Json)) (field : String) : Nat :=
  members.countP fun member => member.1 == some field

/-- The values of the named fields, in their order; a field that is not given has none. There is no
answer if the value is neither an object nor an array, if it gives a field twice or more values
than there are fields, or if the name of a member is no text. -/
def fields? (names : List String) : Json → Option (List (Option Json))
  | array items =>
    if items.length ≤ names.length then
      some (items.map some ++ List.replicate (names.length - items.length) none)
    else none
  | object members =>
    if members.all (fun member => member.1.isSome) &&
        names.all (fun name => occurrences members name ≤ 1) then
      some (names.map fun name =>
        (members.find? fun member => member.1 == some name).map Prod.snd)
    else none
  | _ => none

/-- The natural number below a bound that a value is. -/
def natural? (bound : Nat) : Json → Option Nat
  | number (.natural value) => if value < bound then some value else none
  | _ => none

/-- The truth value that a value is. -/
def bool? : Json → Option Bool
  | bool value => some value
  | _ => none

/-- The name of an alternative without content: a text, or an object whose one member has that name
and the value null. -/
def alternative? : Json → Option String
  | text content => content
  | object [(name, null)] => name
  | _ => none

end FairMerge.Json
