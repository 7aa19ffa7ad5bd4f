import FairMerge.Json.Value

/-! # The grammar of JSON

Which texts spell which value, said without a reader: a text spells a value if it is made of the
value's tokens in their order, each in one of its spellings, with any blanks in front of the first,
between two, and behind the last. A reader is measured against this.

Two bare words next to each other could not be told apart without a blank, but no value has two such
tokens next to each other. -/

namespace FairMerge.Json

/-! ### Numerals -/

namespace Numeral

/-- Decimal digits, at least one of them. -/
def IsDigits (cs : List Char) : Prop := cs ≠ [] ∧ ∀ c ∈ cs, c.isDigit = true

/-- A fraction or nothing. -/
inductive Fraction : List Char → Prop where
  | absent : Fraction []
  | point {digits : List Char} : IsDigits digits → Fraction ('.' :: digits)

/-- An exponent or nothing. -/
inductive Exponent : List Char → Prop where
  | absent : Exponent []
  | power {mark : Char} (sign : List Char) {digits : List Char} : mark = 'e' ∨ mark = 'E' →
      sign = [] ∨ sign = ['+'] ∨ sign = ['-'] → IsDigits digits →
      Exponent (mark :: (sign ++ digits))

/-- A natural number is spelled by its decimal digits alone. Any other numeral has a sign in front
of such digits, or a fraction or an exponent behind them. -/
inductive SpelledBy : Numeral → List Char → Prop where
  | natural (value : Nat) : SpelledBy (natural value) (Decimal.digits value)
  | other (sign : List Char) (whole : Nat) {fraction exponent : List Char} :
      sign = [] ∨ sign = ['-'] → Fraction fraction → Exponent exponent →
      sign ≠ [] ∨ fraction ≠ [] ∨ exponent ≠ [] →
      SpelledBy other (sign ++ Decimal.digits whole ++ (fraction ++ exponent))

end Numeral

/-! ### Quoted texts -/

namespace Quoted

/-- The character is the hexadecimal digit of the value, in either case. -/
def HexDigit (value : Nat) (c : Char) : Prop :=
  value < 16 ∧ (c = value.digitChar ∨ c = value.digitChar.toUpper)

/-- The letters that may follow a backslash, with the characters that they name there. -/
def letters : List (Char × Char) := [
  ('"', '"'), ('\\', '\\'), ('/', '/'), ('b', '\x08'), ('f', '\x0c'), ('n', '\n'), ('r', '\r'),
  ('t', '\t')]

/-- The spellings of a code value: that of a character which stands for itself, that of one which a
letter names, and four hexadecimal digits. -/
inductive Code : Nat → List Char → Prop where
  | plain {c : Char} : c ≠ '"' → c ≠ '\\' → 0x20 ≤ c.toNat → Code c.toNat [c]
  | named {letter c : Char} : (letter, c) ∈ letters → Code c.toNat ['\\', letter]
  | hex {i j k l : Nat} {a b c d : Char} : HexDigit i a → HexDigit j b → HexDigit k c →
      HexDigit l d → Code (16 * (16 * (16 * i + j) + k) + l) ['\\', 'u', a, b, c, d]

/-- The spellings of a sequence of code values. -/
inductive Codes : List Nat → List Char → Prop where
  | nil : Codes [] []
  | cons {unit : Nat} {units : List Nat} {cs rest : List Char} : Code unit cs →
      Codes units rest → Codes (unit :: units) (cs ++ rest)

/-- The characters that code values stand for. Each stands for its own character, or two in a row
are a high and a low surrogate, which carry ten bits each of a character beyond sixteen bits. -/
inductive Means : List Nat → List Char → Prop where
  | nil : Means [] []
  | char (c : Char) {units : List Nat} {cs : List Char} : Means units cs →
      Means (c.toNat :: units) (c :: cs)
  | pair {high low : Nat} {units : List Nat} {cs : List Char} : high < 0x400 → low < 0x400 →
      Means units cs →
      Means ((0xD800 + high) :: (0xDC00 + low) :: units)
        (Char.ofNat (0x10000 + high * 0x400 + low) :: cs)

end Quoted

/-! ### Tokens -/

namespace Token

/-- The characters are one of the token's spellings. -/
inductive SpelledBy : Token → List Char → Prop where
  | openArray : SpelledBy openArray ['[']
  | closeArray : SpelledBy closeArray [']']
  | openObject : SpelledBy openObject ['\x7b']
  | closeObject : SpelledBy closeObject ['\x7d']
  | comma : SpelledBy comma [',']
  | colon : SpelledBy colon [':']
  | null : SpelledBy null ['n', 'u', 'l', 'l']
  | yes : SpelledBy (bool true) ['t', 'r', 'u', 'e']
  | no : SpelledBy (bool false) ['f', 'a', 'l', 's', 'e']
  | number {numeral : Numeral} {cs : List Char} : numeral.SpelledBy cs →
      SpelledBy (number numeral) cs
  | text {units : List Nat} {content : String} {cs : List Char} : Quoted.Codes units cs →
      Quoted.Means units content.toList → SpelledBy (text (some content)) ('"' :: cs ++ ['"'])
  /-- The code values stand for no characters if a surrogate stands alone among them. -/
  | broken {units : List Nat} {cs : List Char} : Quoted.Codes units cs →
      (∀ content, ¬Quoted.Means units content) → SpelledBy (text none) ('"' :: cs ++ ['"'])

/-- Characters that may stand between tokens. -/
def IsBlank (cs : List Char) : Prop := ∀ c ∈ cs, c = ' ' ∨ c = '\t' ∨ c = '\n' ∨ c = '\r'

/-- The characters are spellings of the tokens with blanks around them. -/
inductive AllSpelledBy : List Token → List Char → Prop where
  | nil {blanks : List Char} : IsBlank blanks → AllSpelledBy [] blanks
  | cons {token : Token} {tokens : List Token} {blanks cs rest : List Char} : IsBlank blanks →
      token.SpelledBy cs → AllSpelledBy tokens rest →
      AllSpelledBy (token :: tokens) (blanks ++ (cs ++ rest))

end Token

/-- The text is one of the value's spellings. -/
def SpelledBy (json : Json) (text : String) : Prop := Token.AllSpelledBy json.tokens text.toList

end FairMerge.Json
