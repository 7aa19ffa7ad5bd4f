/-! # One-line descriptions

The layout that descriptions of values share: a record is its name and its named fields in
braces, a list stands in brackets, and items are separated by a comma and a space. -/

namespace FairMerge.Description

/-- The items with a comma and a space between neighbours. -/
def commaSeparated (items : List String) : String := ", ".intercalate items

/-- A list of described items, `[a, b]`. -/
def bracketed (items : List String) : String := "[" ++ commaSeparated items ++ "]"

/-- One field of a record, `label: value`. -/
def field (label value : String) : String := label ++ ": " ++ value

/-- A record with all its fields. -/
def braced (name : String) (fields : List String) : String :=
  name ++ " \x7b " ++ commaSeparated fields ++ " \x7d"

/-- A record of which only some fields are shown: two dots stand for the others. -/
def bracedOpen (name : String) (fields : List String) : String :=
  braced name (fields ++ [".."])

/-- The word for a truth value. -/
def ofBool (b : Bool) : String := if b then "true" else "false"

end FairMerge.Description
