import FairMerge.Json.Token

/-! # JSON values

A value is the same as its sequence of tokens: `Json.tokens` writes them, `Json.ofTokens?` reads
them back, and nothing else is accepted. An object keeps its members in the order of the text, and
a name may occur in it more than once. -/

namespace FairMerge

/-- A JSON value. A text or a name is missing if a surrogate stands alone in it. -/
inductive Json where
  | null
  | bool (value : Bool)
  | number (numeral : Json.Numeral)
  | text (content : Option String)
  | array (items : List Json)
  | object (members : List (Option String × Json))

namespace Json

/-! ### Writing -/

mutual

/-- The tokens of a value. -/
def tokens : Json → List Token
  | null => [.null]
  | bool value => [.bool value]
  | number numeral => [.number numeral]
  | text content => [.text content]
  | array [] => [.openArray, .closeArray]
  | array (item :: items) => .openArray :: tokens item ++ itemTokens items ++ [.closeArray]
  | object [] => [.openObject, .closeObject]
  | object ((name, value) :: members) =>
    .openObject :: .text name :: .colon :: tokens value ++ memberTokens members ++ [.closeObject]

/-- The tokens of the items after the first, each after a comma. -/
def itemTokens : List Json → List Token
  | [] => []
  | item :: items => .comma :: tokens item ++ itemTokens items

/-- The tokens of the members after the first, each after a comma. -/
def memberTokens : List (Option String × Json) → List Token
  | [] => []
  | (name, value) :: members =>
    .comma :: .text name :: .colon :: tokens value ++ memberTokens members

end

/-- The text of a value, without blanks. -/
def render (json : Json) : String := String.ofList (json.tokens.flatMap Token.spell)

/-! ### Reading -/

/-- An array or object that has been begun, with what is complete of it. -/
inductive Frame where
  | array (items : List Json)
  | object (members : List (Option String × Json))
  /-- An object with a name whose value is still to come. -/
  | member (members : List (Option String × Json)) (name : Option String)

/-- What may come next. -/
inductive Expectation where
  /-- A value. -/
  | value
  /-- The first item of an array or its end. -/
  | firstItem
  /-- The first name of an object or its end. -/
  | firstName
  /-- A name. -/
  | name
  /-- The colon after a name. -/
  | colon
  /-- A comma or the end of what was begun last. -/
  | separator

/-- The state of reading: what was begun, the innermost first, or the value once it is complete. -/
inductive Reading where
  | awaiting (expectation : Expectation) (frames : List Frame)
  | complete (json : Json)

namespace Reading

/-- The state after a complete value. -/
def put (frames : List Frame) (json : Json) : Option Reading :=
  match frames with
  | [] => some (complete json)
  | .array items :: frames => some (awaiting .separator (.array (items ++ [json]) :: frames))
  | .member members name :: frames =>
    some (awaiting .separator (.object (members ++ [(name, json)]) :: frames))
  | .object _ :: _ => none

/-- The state after a token that begins a value. -/
def begin (frames : List Frame) : Token → Option Reading
  | .null => put frames .null
  | .bool value => put frames (.bool value)
  | .number numeral => put frames (.number numeral)
  | .text content => put frames (.text content)
  | .openArray => some (awaiting .firstItem (.array [] :: frames))
  | .openObject => some (awaiting .firstName (.object [] :: frames))
  | _ => none

/-- The state after a token. -/
def next (reading : Reading) (token : Token) : Option Reading :=
  match reading with
  | complete _ => none
  | awaiting .value frames => begin frames token
  | awaiting .firstItem frames =>
    match token, frames with
    | .closeArray, .array items :: frames => put frames (.array items)
    | token, frames => begin frames token
  | awaiting .firstName frames =>
    match token, frames with
    | .closeObject, .object members :: frames => put frames (.object members)
    | .text name, .object members :: frames =>
      some (awaiting .colon (.member members name :: frames))
    | _, _ => none
  | awaiting .name frames =>
    match token, frames with
    | .text name, .object members :: frames =>
      some (awaiting .colon (.member members name :: frames))
    | _, _ => none
  | awaiting .colon frames =>
    match token with
    | .colon => some (awaiting .value frames)
    | _ => none
  | awaiting .separator frames =>
    match token, frames with
    | .comma, .array items :: frames => some (awaiting .value (.array items :: frames))
    | .closeArray, .array items :: frames => put frames (.array items)
    | .comma, .object members :: frames => some (awaiting .name (.object members :: frames))
    | .closeObject, .object members :: frames => put frames (.object members)
    | _, _ => none

/-- The value, if it is complete. -/
def value? : Reading → Option Json
  | complete json => some json
  | awaiting _ _ => none

end Reading

/-- The value whose tokens these are. -/
def ofTokens? (tokens : List Token) : Option Json :=
  (tokens.foldlM Reading.next (.awaiting .value [])).bind Reading.value?

/-- The value that a text stands for. -/
def parse? (text : String) : Option Json := (Token.ofText? text).bind ofTokens?

end Json

end FairMerge
