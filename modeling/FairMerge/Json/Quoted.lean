/-! # Quoted text

How a text is written between quotation marks. Quotation mark, backslash and the control characters
below the space are escaped, all else stands for itself.

An escape by four hexadecimal digits names a code value of sixteen bits. A character beyond that
range takes two of them, a high and a low surrogate, one right after the other. A surrogate without
its partner may be written, but what is written then is no text. -/

namespace FairMerge.Json.Quoted

/-- Whether a code value is the first half of a pair. -/
def isHigh (unit : Nat) : Bool := 0xD800 ≤ unit && unit < 0xDC00

/-- Whether a code value is the second half of a pair. -/
def isLow (unit : Nat) : Bool := 0xDC00 ≤ unit && unit < 0xE000

/-- The character of a pair. -/
def pairChar (high low : Nat) : Char :=
  Char.ofNat (0x10000 + (high - 0xD800) * 0x400 + (low - 0xDC00))

/-- The character of a single code value, unless it is half of a pair. -/
def unitChar? (unit : Nat) : Option Char :=
  if isHigh unit || isLow unit then none else some (Char.ofNat unit)

/-- The characters of a sequence of code values, unless some half of a pair stands alone. -/
def chars? : List Nat → Option (List Char)
  | [] => some []
  | [unit] => (unitChar? unit).map ([·])
  | unit :: next :: units =>
    if isHigh unit && isLow next then (chars? units).map (pairChar unit next :: ·)
    else do
      let c ← unitChar? unit
      return c :: (← chars? (next :: units))

/-- The text of a sequence of code values. -/
def text? (units : List Nat) : Option String := (chars? units).map String.ofList

/-- The character that a letter names after a backslash. -/
def escaped? : Char → Option Char
  | '"' => some '"'
  | '\\' => some '\\'
  | '/' => some '/'
  | 'b' => some '\x08'
  | 'f' => some '\x0c'
  | 'n' => some '\n'
  | 'r' => some '\r'
  | 't' => some '\t'
  | _ => none

/-- The value of a hexadecimal digit in either case. -/
def hexValue? (c : Char) : Option Nat :=
  if '0' ≤ c ∧ c ≤ '9' then some (c.toNat - '0'.toNat)
  else if 'a' ≤ c ∧ c ≤ 'f' then some (c.toNat - 'a'.toNat + 10)
  else if 'A' ≤ c ∧ c ≤ 'F' then some (c.toNat - 'A'.toNat + 10)
  else none

/-- The written form of a character. -/
def escape (c : Char) : List Char :=
  match c with
  | '"' => ['\\', '"']
  | '\\' => ['\\', '\\']
  | '\x08' => ['\\', 'b']
  | '\x0c' => ['\\', 'f']
  | '\n' => ['\\', 'n']
  | '\r' => ['\\', 'r']
  | '\t' => ['\\', 't']
  | c =>
    if c.toNat < 0x20 then
      ['\\', 'u', '0', '0', (c.toNat / 16).digitChar, (c.toNat % 16).digitChar]
    else [c]

/-- The written form of a text, without the quotation marks. For a content that is no text a
surrogate stands alone. -/
def spell : Option String → List Char
  | some text => text.toList.flatMap escape
  | none => ['\\', 'u', 'd', '8', '0', '0']

end FairMerge.Json.Quoted
