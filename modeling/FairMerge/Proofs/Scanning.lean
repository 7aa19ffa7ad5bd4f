import FairMerge.Proofs.Spelling

/-! # Scanning

The scanner finds in a text exactly those tokens of which the text is a spelling. What is left of a
token that has been begun is said for every place in a text (`Place.Completes`); each character
keeps it, and so the text as a whole has it. The other way round no two bare words may stand next to
each other, since what follows a bare word must end it. -/

namespace FairMerge.Json.Token

/-! ### Bare words -/

/-- Whether the token is a bare word. -/
def isBare : Token → Bool
  | null | bool _ | number _ => true
  | _ => false

/-- A numeral begins with a digit or a sign, which none of the literals does. -/
theorem head_of_numeral {numeral : Numeral} {c : Char} {cs : List Char}
    (spelled : numeral.SpelledBy (c :: cs)) : c.isDigit = true ∨ c = '-' := by
  generalize whole : c :: cs = written at spelled
  cases spelled with
  | natural value =>
    have behind : Decimal.digits value ++ [] = c :: cs := by simpa using whole.symm
    exact .inl ((Numeral.isDigits_digits value).isDigit_of_append behind)
  | other sign value signed _ _ _ =>
    rcases signed with rfl | rfl
    · exact .inl ((Numeral.isDigits_digits value).isDigit_of_append whole.symm)
    · exact .inr (List.cons.inj whole).1

/-- The token that a bare word is read as is the one that it spells. -/
theorem ofBare?_eq_some_iff {cs : List Char} {token : Token} :
    ofBare? cs = some token ↔ token.isBare = true ∧ token.SpelledBy cs := by
  unfold ofBare?
  constructor
  · intro known
    split at known
    · subst_vars
      cases known
      exact ⟨rfl, .null⟩
    · split at known
      · subst_vars
        cases known
        exact ⟨rfl, .yes⟩
      · split at known
        · subst_vars
          cases known
          exact ⟨rfl, .no⟩
        · obtain ⟨numeral, read, rfl⟩ := Option.map_eq_some_iff.mp known
          exact ⟨rfl, .number (Numeral.ofChars?_eq_some_iff.mp read)⟩
  · rintro ⟨bare, spelled⟩
    cases spelled with
    | null => rfl
    | yes => rfl
    | no => rfl
    | number spelled =>
      -- The literals are tried before the numerals, and each of them begins with a letter.
      have letter : ∀ c word, c.isDigit = false ∧ c ≠ '-' → cs ≠ c :: word := by
        rintro c word ⟨undigit, unsigned⟩ rfl
        rcases head_of_numeral spelled with digit | rfl
        · simp [undigit] at digit
        · exact unsigned rfl
      rw [if_neg (letter _ _ (by decide)), if_neg (letter _ _ (by decide)),
        if_neg (letter _ _ (by decide)), Numeral.ofChars?_eq_some_iff.mpr spelled]
      rfl
    | _ => simp [isBare] at bare

theorem isBareChar_of_isDigit {c : Char} (digit : c.isDigit = true) : isBareChar c = true := by
  simp [isBareChar, Char.isAlphanum, digit]

theorem isBareChar_of_numeral {numeral : Numeral} {cs : List Char}
    (spelled : numeral.SpelledBy cs) : ∀ c ∈ cs, isBareChar c = true := by
  have digits : ∀ {cs : List Char}, Numeral.IsDigits cs → ∀ c ∈ cs, isBareChar c = true :=
    fun digits c mem => isBareChar_of_isDigit (digits.2 c mem)
  cases spelled with
  | natural value => exact digits (Numeral.isDigits_digits value)
  | @other sign value fraction exponent signed fractional exponential _ =>
    have sign : ∀ c ∈ sign, isBareChar c = true := by
      rcases signed with rfl | rfl <;> exact List.all_eq_true.mp rfl
    have fraction : ∀ c ∈ fraction, isBareChar c = true := by
      cases fractional with
      | absent => simp
      | point behind => simpa [show isBareChar '.' = true from rfl] using digits behind
    have exponent : ∀ c ∈ exponent, isBareChar c = true := by
      cases exponential with
      | absent => simp
      | @power mark plus _ marked plussed behind =>
        have mark : isBareChar mark = true := by
          rcases marked with rfl | rfl <;> rfl
        have plus : ∀ c ∈ plus, isBareChar c = true := by
          rcases plussed with rfl | rfl | rfl <;> exact List.all_eq_true.mp rfl
        simpa [mark, or_imp, forall_and] using ⟨plus, digits behind⟩
    simpa [or_imp, forall_and] using
      ⟨sign, digits (Numeral.isDigits_digits value), fraction, exponent⟩

/-- Of a bare word all characters may be part of one. -/
theorem SpelledBy.isBareChar {token : Token} {cs : List Char} (spelled : token.SpelledBy cs)
    (bare : token.isBare = true) : ∀ c ∈ cs, isBareChar c = true := by
  cases spelled with
  | null | yes | no => exact List.all_eq_true.mp rfl
  | number spelled => exact isBareChar_of_numeral spelled
  | _ => simp [isBare] at bare

/-! ### What is spelled is scanned -/

/-- Whether the text goes on with something other than a bare word. -/
def endsWord : List Char → Bool
  | [] => true
  | c :: _ => !isBareChar c

/-- A bare word ends where the characters of bare words end. -/
theorem scan?_bare {word rest : List Char} {token : Token}
    (known : ofBare? word.reverse = some token) (ends : endsWord rest = true) :
    scan? (.bare word) rest = (scan? .between rest).map (token :: ·) := by
  cases rest with
  | nil => simp [scan?, finish?, known]
  | cons c cs =>
    have outside : isBareChar c = false := by simpa [endsWord] using ends
    cases started : start? c with
    | none => simp [scan?, next?, outside, known, started]
    | some result =>
      cases scanned : scan? result.2 cs <;>
        simp [scan?, next?, outside, known, started, scanned]

theorem scan?_bareChars (word rest : List Char) {cs : List Char}
    (bare : ∀ c ∈ cs, isBareChar c = true) :
    scan? (.bare word) (cs ++ rest) = scan? (.bare (cs.reverse ++ word)) rest := by
  induction cs generalizing word with
  | nil => rfl
  | cons c cs ih =>
    have head : isBareChar c = true := bare c (by simp)
    have tail : ∀ c ∈ cs, isBareChar c = true := fun c mem => bare c (by simp [mem])
    simp [scan?, next?, head, ih (c :: word) tail]

theorem start?_of_isBareChar {c : Char} (bare : isBareChar c = true) :
    start? c = some ([], .bare [c]) := by
  have unblank : isBlank c = false := by
    cases blank : isBlank c with
    | false => rfl
    | true =>
      simp only [isBlank, Bool.or_eq_true, beq_iff_eq] at blank
      rcases blank with ((rfl | rfl) | rfl) | rfl <;> exact absurd bare (by decide)
  have unquoted : c ≠ '"' := by
    rintro rfl
    exact absurd bare (by decide)
  simp [start?, unblank, unquoted, bare]

/-- Scanning a bare word gives its token. -/
theorem scan?_word {token : Token} {cs rest : List Char} (bare : token.isBare = true)
    (spelled : token.SpelledBy cs) (ends : endsWord rest = true) :
    scan? .between (cs ++ rest) = (scan? .between rest).map (token :: ·) := by
  have known := ofBare?_eq_some_iff.mpr ⟨bare, spelled⟩
  have chars := spelled.isBareChar bare
  cases cs with
  | nil => cases known
  | cons c cs =>
    have started := start?_of_isBareChar (chars c (by simp))
    have word := scan?_bareChars [c] rest fun d mem => chars d (List.mem_cons_of_mem c mem)
    have known' : ofBare? (cs.reverse ++ [c]).reverse = some token := by simpa using known
    simp [scan?, next?, started, word, scan?_bare known' ends]

/-- Scanning a spelling of a code value adds the value to those that were read. -/
theorem scan?_code (units : List Nat) {unit : Nat} {cs : List Char} (code : Quoted.Code unit cs)
    (rest : List Char) :
    scan? (.quoted units) (cs ++ rest) = scan? (.quoted (unit :: units)) rest := by
  cases code with
  | plain unquoted unescaped printed =>
    simp [scan?, next?, unquoted, unescaped, Nat.not_lt.mpr printed]
  | @named letter c listed =>
    have named := Quoted.escaped?_eq_some_iff.mpr listed
    have other : letter ≠ 'u' := by
      rintro rfl
      cases named
    simp [scan?, next?, other, named]
  | hex i j k l =>
    simp [scan?, next?, Quoted.hexValue?_eq_some_iff.mpr i, Quoted.hexValue?_eq_some_iff.mpr j,
      Quoted.hexValue?_eq_some_iff.mpr k, Quoted.hexValue?_eq_some_iff.mpr l]

theorem scan?_codes {units : List Nat} {cs : List Char} (codes : Quoted.Codes units cs)
    (before : List Nat) (rest : List Char) :
    scan? (.quoted before) (cs ++ rest) = scan? (.quoted (units.reverse ++ before)) rest := by
  induction codes generalizing before with
  | nil => rfl
  | cons code codes ih =>
    rw [List.append_assoc, scan?_code before code, ih]
    simp

/-- Scanning a spelling of a token gives the token, as long as a bare word ends there. -/
theorem scan?_spelled {token : Token} {cs rest : List Char} (spelled : token.SpelledBy cs)
    (ends : token.isBare = true → endsWord rest = true) :
    scan? .between (cs ++ rest) = (scan? .between rest).map (token :: ·) := by
  have mark : ∀ {c : Char} {token : Token}, start? c = some ([token], .between) →
      scan? .between (c :: rest) = (scan? .between rest).map (token :: ·) := by
    intro c token started
    cases scanned : scan? .between rest <;> simp [scan?, next?, started, scanned]
  cases token with
  | openArray => cases spelled; exact mark rfl
  | closeArray => cases spelled; exact mark rfl
  | openObject => cases spelled; exact mark rfl
  | closeObject => cases spelled; exact mark rfl
  | comma => cases spelled; exact mark rfl
  | colon => cases spelled; exact mark rfl
  | null => exact scan?_word rfl spelled (ends rfl)
  | bool value => exact scan?_word rfl spelled (ends rfl)
  | number numeral => exact scan?_word rfl spelled (ends rfl)
  | text content =>
    obtain ⟨units, body, rfl, codes, rfl⟩ := codes_of_spelledBy_text spelled
    have opened : scan? .between ('"' :: body ++ ['"'] ++ rest) =
        scan? (.quoted []) (body ++ '"' :: rest) := by
      simp [scan?, next?, show start? '"' = some ([], .quoted []) from rfl]
    have closed : scan? (.quoted units.reverse) ('"' :: rest) =
        (scan? .between rest).map (text (Quoted.text? units) :: ·) := by
      cases scanned : scan? .between rest <;> simp [scan?, next?, scanned]
    rw [opened, scan?_codes codes, List.append_nil, closed]

/-- Blanks are passed over. -/
theorem scan?_blanks {blanks : List Char} (blank : IsBlank blanks) (rest : List Char) :
    scan? .between (blanks ++ rest) = scan? .between rest := by
  induction blanks with
  | nil => rfl
  | cons c blanks ih =>
    have head : isBlank c = true := by
      simpa [isBlank, or_assoc] using blank c (by simp)
    have tail : IsBlank blanks := fun d mem => blank d (List.mem_cons_of_mem c mem)
    simp [scan?, next?, start?, head, ih tail]

/-- Whether no two bare words stand next to each other. -/
def separated : List Token → Bool
  | first :: second :: tokens =>
    !(first.isBare && second.isBare) && separated (second :: tokens)
  | _ => true

theorem separated_of_cons {token : Token} {tokens : List Token}
    (apart : separated (token :: tokens) = true) : separated tokens = true := by
  cases tokens with
  | nil => rfl
  | cons next tokens =>
    simp only [separated, Bool.and_eq_true] at apart
    exact apart.2

/-- Blanks end a bare word. -/
theorem endsWord_append {blanks cs : List Char} (blank : IsBlank blanks)
    (ends : endsWord cs = true) : endsWord (blanks ++ cs) = true := by
  cases blanks with
  | nil => exact ends
  | cons c blanks =>
    rcases blank c (by simp) with rfl | rfl | rfl | rfl <;> rfl

/-- A token other than a bare word ends a bare word in front of it. -/
theorem SpelledBy.endsWord {token : Token} {cs : List Char} (spelled : token.SpelledBy cs)
    (unbare : token.isBare = false) (rest : List Char) : endsWord (cs ++ rest) = true := by
  cases spelled with
  | null | yes | no | number => cases unbare
  | _ => rfl

theorem AllSpelledBy.endsWord {token : Token} {tokens : List Token} {cs : List Char}
    (spelled : AllSpelledBy tokens cs) (apart : separated (token :: tokens) = true)
    (bare : token.isBare = true) : endsWord cs = true := by
  cases spelled with
  | nil blank => simpa using endsWord_append blank (show Token.endsWord [] = true from rfl)
  | @cons next _ _ _ rest blank spelled _ =>
    have unbare : next.isBare = false := by
      simp only [separated, bare, Bool.true_and, Bool.and_eq_true, Bool.not_eq_true'] at apart
      exact apart.1
    exact endsWord_append blank (spelled.endsWord unbare rest)

/-- Scanning a spelling of tokens gives the tokens. -/
theorem scan?_of_allSpelledBy {tokens : List Token} {cs : List Char}
    (spelled : AllSpelledBy tokens cs) (apart : separated tokens = true) :
    scan? .between cs = some tokens := by
  induction spelled with
  | @nil blanks blank =>
    rw [← List.append_nil blanks, scan?_blanks blank]
    rfl
  | cons blank spelled rest ih =>
    rw [scan?_blanks blank, scan?_spelled spelled (rest.endsWord apart),
      ih (separated_of_cons apart)]
    rfl

/-! ### What is scanned is spelled -/

/-- The digits lead from the value read so far to the code value of an escape. -/
inductive Hexes : Nat → Nat → List Char → Prop where
  | nil (value : Nat) : Hexes value value []
  | cons {value digit unit : Nat} {c : Char} {cs : List Char} : Quoted.HexDigit digit c →
      Hexes (16 * value + digit) unit cs → Hexes value unit (c :: cs)

/-- The characters go on from a place so that the tokens come out. A quoted text that has been
begun goes on with spellings of code values up to its closing mark; in an escape, what has been read
of the spelling is missing from the first of them. -/
inductive Place.Completes : Place → List Token → List Char → Prop where
  | between {tokens : List Token} {cs : List Char} : AllSpelledBy tokens cs →
      Completes .between tokens cs
  | bare {word more rest : List Char} {token : Token} {tokens : List Token} :
      token.isBare = true → token.SpelledBy (word.reverse ++ more) → AllSpelledBy tokens rest →
      Completes (.bare word) (token :: tokens) (more ++ rest)
  | quoted {units more : List Nat} {body rest : List Char} {tokens : List Token} :
      Quoted.Codes more body → AllSpelledBy tokens rest →
      Completes (.quoted units) (.text (Quoted.text? (units.reverse ++ more)) :: tokens)
        (body ++ '"' :: rest)
  | escape {units : List Nat} {unit : Nat} {code cs : List Char} {tokens : List Token} :
      Quoted.Code unit ('\\' :: code) → Completes (.quoted (unit :: units)) tokens cs →
      Completes (.escape units) tokens (code ++ cs)
  | hex {units : List Nat} {missing value unit : Nat} {digits cs : List Char}
      {tokens : List Token} : Hexes value unit digits → digits.length = max missing 1 →
      Completes (.quoted (unit :: units)) tokens cs →
      Completes (.hex units missing value) tokens (digits ++ cs)

/-- Four hexadecimal digits spell a code value. -/
theorem Hexes.code {unit : Nat} {digits : List Char} (hexes : Hexes 0 unit digits)
    (four : digits.length = 4) : Quoted.Code unit ('\\' :: 'u' :: digits) := by
  match digits, four with
  | [a, b, c, d], _ =>
    cases hexes with
    | cons i hexes =>
      cases hexes with
      | cons j hexes =>
        cases hexes with
        | cons k hexes =>
          cases hexes with
          | cons l hexes =>
            cases hexes
            simpa using Quoted.Code.hex i j k l

theorem AllSpelledBy.blank {tokens : List Token} {c : Char} {cs : List Char}
    (blank : isBlank c = true) (spelled : AllSpelledBy tokens cs) :
    AllSpelledBy tokens (c :: cs) := by
  have one : c = ' ' ∨ c = '\t' ∨ c = '\n' ∨ c = '\r' := by
    simpa [isBlank, or_assoc] using blank
  have more : ∀ {blanks : List Char}, IsBlank blanks → IsBlank (c :: blanks) := by
    intro blanks rest d mem
    rcases List.mem_cons.mp mem with rfl | mem
    · exact one
    · exact rest d mem
  cases spelled with
  | nil rest => exact .nil (more rest)
  | cons rest token tokens => exact .cons (more rest) token tokens

theorem AllSpelledBy.token {token : Token} {tokens : List Token} {cs rest : List Char}
    (spelled : token.SpelledBy cs) (others : AllSpelledBy tokens rest) :
    AllSpelledBy (token :: tokens) (cs ++ rest) :=
  .cons (show IsBlank [] by simp [IsBlank]) spelled others

theorem spelledBy_of_ofMark? {c : Char} {token : Token} (known : ofMark? c = some token) :
    token.SpelledBy [c] := by
  unfold ofMark? at known
  split at known <;> cases known
  · exact .openArray
  · exact .closeArray
  · exact .openObject
  · exact .closeObject
  · exact .comma
  · exact .colon

/-- A character that does not go on with a token begins the next one or is blank. -/
theorem Place.Completes.start {c : Char} {cs : List Char} {done tokens : List Token}
    {place : Place} (started : start? c = some (done, place)) (rest : place.Completes tokens cs) :
    AllSpelledBy (done ++ tokens) (c :: cs) := by
  unfold start? at started
  split at started
  · rename_i blank
    cases started
    cases rest with
    | between spelled => exact spelled.blank blank
  · split at started
    · subst_vars
      cases started
      cases rest with
      | quoted codes spelled => simpa using spelled.token (spelledBy_text codes)
    · split at started
      · cases started
        cases rest with
        | bare _ token spelled => exact spelled.token token
      · obtain ⟨token, mark, same⟩ := Option.map_eq_some_iff.mp started
        cases same
        cases rest with
        | between spelled => exact spelled.token (spelledBy_of_ofMark? mark)

/-- A code value that has been spelled is the first of those that were still to come. -/
theorem Place.Completes.code {units : List Nat} {unit : Nat} {code cs : List Char}
    {tokens : List Token} (spelled : Quoted.Code unit code)
    (rest : Place.Completes (.quoted (unit :: units)) tokens cs) :
    Place.Completes (.quoted units) tokens (code ++ cs) := by
  cases rest with
  | quoted codes others =>
    rw [List.reverse_cons, List.append_assoc, List.singleton_append, ← List.append_assoc]
    exact .quoted (.cons spelled codes) others

/-- Each character is accounted for. -/
theorem Place.Completes.step {place next : Place} {c : Char} {cs : List Char}
    {done tokens : List Token} (step : next? place c = some (done, next))
    (rest : next.Completes tokens cs) : place.Completes (done ++ tokens) (c :: cs) := by
  cases place with
  | between => exact .between (rest.start step)
  | bare word =>
    simp only [next?] at step
    split at step
    · cases step
      cases rest with
      | bare bare spelled others =>
        rw [List.reverse_cons, List.append_assoc] at spelled
        exact .bare bare spelled others
    · simp only [Option.bind_eq_bind, Option.bind_eq_some_iff, Option.pure_def, Option.some.injEq,
        Prod.exists] at step
      -- The character ends the word, and it is blank or begins what comes next.
      obtain ⟨token, known, started, after, begun, same⟩ := step
      cases same
      obtain ⟨bare, spelled⟩ := ofBare?_eq_some_iff.mp known
      rw [← List.append_nil word.reverse] at spelled
      exact .bare bare spelled (rest.start begun)
  | quoted units =>
    simp only [next?] at step
    split at step
    · subst_vars
      cases step
      cases rest with
      | between others =>
        have closed : Place.Completes (.quoted units) _ ('"' :: cs) := .quoted .nil others
        rwa [List.append_nil] at closed
    · split at step
      · subst_vars
        cases step
        cases rest with
        | escape spelled others => exact others.code spelled
      · split at step
        · cases step
        · rename_i unquoted unescaped printed
          cases step
          exact rest.code (.plain unquoted unescaped (Nat.not_lt.mp printed))
  | escape units =>
    simp only [next?] at step
    split at step
    · subst_vars
      cases step
      cases rest with
      | hex hexes four others => exact .escape (hexes.code four) others
    · obtain ⟨named, known, same⟩ := Option.map_eq_some_iff.mp step
      cases same
      exact .escape (.named (Quoted.escaped?_eq_some_iff.mp known)) rest
  | hex units missing value =>
    simp only [next?] at step
    obtain ⟨digit, known, same⟩ := Option.map_eq_some_iff.mp step
    cases same
    have digit := Quoted.hexValue?_eq_some_iff.mp known
    split at rest
    · rename_i last
      have one : [c].length = max missing 1 := by
        rw [List.length_singleton]
        omega
      exact .hex (.cons digit (.nil _)) one rest
    · rename_i more
      cases rest with
      | @hex _ _ _ _ digits _ _ hexes count others =>
        have longer : (c :: digits).length = max missing 1 := by
          rw [List.length_cons]
          omega
        exact .hex (.cons digit hexes) longer others

theorem Place.completes_of_finish? {place : Place} {tokens : List Token}
    (finished : finish? place = some tokens) : place.Completes tokens [] := by
  cases place with
  | between =>
    cases finished
    exact .between (.nil fun _ mem => by simp at mem)
  | bare word =>
    obtain ⟨token, known, rfl⟩ := Option.map_eq_some_iff.mp finished
    obtain ⟨bare, spelled⟩ := ofBare?_eq_some_iff.mp known
    rw [← List.append_nil word.reverse] at spelled
    exact .bare bare spelled (.nil fun _ mem => by simp at mem)
  | quoted | escape | hex => cases finished

/-- Whatever is scanned from a place on is spelled there. -/
theorem Place.completes_of_scan? {place : Place} {tokens : List Token} {cs : List Char}
    (scanned : scan? place cs = some tokens) : place.Completes tokens cs := by
  induction cs generalizing place tokens with
  | nil => exact completes_of_finish? scanned
  | cons c cs ih =>
    simp only [scan?, Option.bind_eq_bind, Option.bind_eq_some_iff, Option.pure_def,
      Option.some.injEq, Prod.exists] at scanned
    obtain ⟨done, next, step, tokens, scanned, rfl⟩ := scanned
    exact (ih scanned).step step

/-- The tokens of a text are exactly those of which it is a spelling. -/
theorem ofText?_eq_some_iff {text : String} {tokens : List Token}
    (apart : separated tokens = true) :
    ofText? text = some tokens ↔ AllSpelledBy tokens text.toList := by
  constructor
  · intro scanned
    cases Place.completes_of_scan? scanned with
    | between spelled => exact spelled
  · intro spelled
    exact scan?_of_allSpelledBy spelled apart

end FairMerge.Json.Token
