import FairMerge.Decimal
import FairMerge.Json.Quoted

/-! # Tokens of JSON

The tokens of a JSON text are its brackets, its commas and colons, its quoted texts, and its bare
words: the three literals and the numerals. Between tokens there may be space, tab, carriage return
and line feed, and nothing else.

A bare word reaches as far as there are characters that a bare word can have; whether it is a word
of the language is asked of the whole of it. -/

namespace FairMerge.Json

/-- A numeral. Only those that a natural number is written as are told apart by their value. -/
inductive Numeral where
  | natural (value : Nat)
  /-- With a sign, a fraction or an exponent. -/
  | other
deriving DecidableEq

namespace Numeral

/-- Whether the characters after the digits of the fraction are an exponent or nothing. -/
def isExponent : List Char → Bool
  | [] => true
  | mark :: rest =>
    let digits := match rest with
      | '+' :: digits => digits
      | '-' :: digits => digits
      | digits => digits
    (mark == 'e' || mark == 'E') && !digits.isEmpty && digits.all Char.isDigit

/-- Whether the characters after the whole part are a fraction, an exponent, both or nothing. -/
def isTail : List Char → Bool
  | '.' :: rest =>
    !(rest.takeWhile Char.isDigit).isEmpty && isExponent (rest.dropWhile Char.isDigit)
  | rest => isExponent rest

/-- Whether the characters are a numeral: a sign or none, a plain numeral, and a tail. -/
def isNumeral (cs : List Char) : Bool :=
  let unsigned := match cs with
    | '-' :: rest => rest
    | cs => cs
  Decimal.isPlain (unsigned.takeWhile Char.isDigit) && isTail (unsigned.dropWhile Char.isDigit)

/-- The numeral that the characters are. -/
def ofChars? (cs : List Char) : Option Numeral :=
  match Decimal.value? cs with
  | some value => some (natural value)
  | none => if isNumeral cs then some other else none

/-- A way to write the numeral. -/
def spell : Numeral → List Char
  | natural value => Decimal.digits value
  | other => ['-', '0']

end Numeral

/-- A token. The content of a quoted text is missing if a surrogate stands alone in it. -/
inductive Token where
  | openArray
  | closeArray
  | openObject
  | closeObject
  | comma
  | colon
  | null
  | bool (value : Bool)
  | number (numeral : Numeral)
  | text (content : Option String)
deriving DecidableEq

namespace Token

/-- Whether the character may stand between tokens. -/
def isBlank (c : Char) : Bool := c == ' ' || c == '\t' || c == '\n' || c == '\r'

/-- The token that is a single character. -/
def ofMark? : Char → Option Token
  | '[' => some openArray
  | ']' => some closeArray
  | '\x7b' => some openObject
  | '\x7d' => some closeObject
  | ',' => some comma
  | ':' => some colon
  | _ => none

/-- Whether the character may be part of a bare word. -/
def isBareChar (c : Char) : Bool := c.isAlphanum || c == '+' || c == '-' || c == '.'

/-- The token that a bare word is. -/
def ofBare? (cs : List Char) : Option Token :=
  if cs = ['n', 'u', 'l', 'l'] then some null
  else if cs = ['t', 'r', 'u', 'e'] then some (bool true)
  else if cs = ['f', 'a', 'l', 's', 'e'] then some (bool false)
  else (Numeral.ofChars? cs).map number

/-- A way to write the token. -/
def spell : Token → List Char
  | openArray => ['[']
  | closeArray => [']']
  | openObject => ['\x7b']
  | closeObject => ['\x7d']
  | comma => [',']
  | colon => [':']
  | null => ['n', 'u', 'l', 'l']
  | bool true => ['t', 'r', 'u', 'e']
  | bool false => ['f', 'a', 'l', 's', 'e']
  | number numeral => numeral.spell
  | text content => '"' :: Quoted.spell content ++ ['"']

/-! ### Scanning -/

/-- Where in a text the scanner is. What has been read of a token is kept last character first. -/
inductive Place where
  /-- Between tokens. -/
  | between
  /-- In a bare word. -/
  | bare (word : List Char)
  /-- In a quoted text, of which so many code values have been read. -/
  | quoted (units : List Nat)
  /-- After a backslash in a quoted text. -/
  | escape (units : List Nat)
  /-- In an escape that lacks so many hexadecimal digits. -/
  | hex (units : List Nat) (missing value : Nat)

/-- The place after a character that does not go on with a token. A mark is a token at once. -/
def start? (c : Char) : Option (List Token × Place) :=
  if isBlank c then some ([], .between)
  else if c = '"' then some ([], .quoted [])
  else if isBareChar c then some ([], .bare [c])
  else (ofMark? c).map fun token => ([token], .between)

/-- The tokens that a character completes, and the place after it. -/
def next? (place : Place) (c : Char) : Option (List Token × Place) :=
  match place with
  | .between => start? c
  | .bare word =>
    if isBareChar c then some ([], .bare (c :: word))
    else do
      let token ← ofBare? word.reverse
      let (tokens, place) ← start? c
      return (token :: tokens, place)
  | .quoted units =>
    if c = '"' then some ([text (Quoted.text? units.reverse)], .between)
    else if c = '\\' then some ([], .escape units)
    else if c.toNat < 0x20 then none
    else some ([], .quoted (c.toNat :: units))
  | .escape units =>
    if c = 'u' then some ([], .hex units 4 0)
    else (Quoted.escaped? c).map fun named => ([], .quoted (named.toNat :: units))
  | .hex units missing value =>
    (Quoted.hexValue? c).map fun digit =>
      let value := 16 * value + digit
      ([], if missing ≤ 1 then .quoted (value :: units) else .hex units (missing - 1) value)

/-- The tokens that the end of the text completes. -/
def finish? : Place → Option (List Token)
  | .between => some []
  | .bare word => (ofBare? word.reverse).map ([·])
  | _ => none

/-- The tokens of the rest of a text, from a place on. -/
def scan? (place : Place) : List Char → Option (List Token)
  | [] => finish? place
  | c :: cs => do
    let (tokens, place) ← next? place c
    return tokens ++ (← scan? place cs)

/-- The tokens of a text. -/
def ofText? (text : String) : Option (List Token) := scan? .between text.toList

end Token

end FairMerge.Json
