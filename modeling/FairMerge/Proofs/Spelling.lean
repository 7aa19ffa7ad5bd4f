import FairMerge.Proofs.Grammar

/-! # Spellings of numerals and quoted texts

What is read as a numeral are exactly its spellings, and a quoted text is read as what its code
values stand for. -/

namespace FairMerge.Json

/-! ### Numerals -/

namespace Numeral

theorem isDigits_iff {cs : List Char} :
    IsDigits cs ↔ (!cs.isEmpty) = true ∧ cs.all Char.isDigit = true := by
  simp [IsDigits]

theorem IsDigits.isDigit_of_append {digits : List Char} (whole : IsDigits digits)
    {c : Char} {tail rest : List Char} (spelled : digits ++ tail = c :: rest) :
    c.isDigit = true := by
  cases digits with
  | nil => exact absurd rfl whole.1
  | cons d digits =>
    obtain rfl : d = c := (List.cons.inj spelled).1
    exact whole.2 d (by simp)

theorem isDigits_digits (n : Nat) : IsDigits (Decimal.digits n) :=
  ⟨Nat.toDigits_ne_nil, fun _ mem => Nat.isDigit_of_mem_toDigits (by omega) (by omega) mem⟩

/-- Digits are told apart from what follows them, unless that begins with a digit as well. -/
theorem IsDigits.takeWhile_append {digits rest : List Char} (whole : IsDigits digits)
    (ends : ∀ c ∈ rest.head?, c.isDigit = false) :
    (digits ++ rest).takeWhile Char.isDigit = digits ∧
      (digits ++ rest).dropWhile Char.isDigit = rest := by
  rw [List.takeWhile_append_of_pos whole.2, List.dropWhile_append_of_pos whole.2]
  cases rest with
  | nil => simp
  | cons c rest => simp [ends c rfl]

/-- No sign is a digit, so digits are not taken for a sign. -/
theorem isExponent_iff {cs : List Char} : isExponent cs = true ↔ Exponent cs := by
  cases cs with
  | nil => exact iff_of_true rfl .absent
  | cons mark rest =>
    simp only [isExponent, Bool.and_assoc, Bool.and_eq_true, Bool.or_eq_true, beq_iff_eq,
      ← isDigits_iff]
    constructor
    · rintro ⟨marked, digits⟩
      split at digits
      · exact .power ['+'] marked (.inr (.inl rfl)) digits
      · exact .power ['-'] marked (.inr (.inr rfl)) digits
      · exact .power [] marked (.inl rfl) digits
    · intro exponent
      generalize spelled : mark :: rest = cs at exponent
      cases exponent with
      | absent => cases spelled
      | power sign marked signed digits =>
        obtain ⟨rfl, rfl⟩ := List.cons.inj spelled
        refine ⟨marked, ?_⟩
        rcases signed with rfl | rfl | rfl
        · split
          · rename_i spelled
            exact absurd (digits.isDigit_of_append ((List.append_nil _).trans spelled)) (by decide)
          · rename_i spelled
            exact absurd (digits.isDigit_of_append ((List.append_nil _).trans spelled)) (by decide)
          · exact digits
        · exact digits
        · exact digits

theorem Exponent.isDigit_head {cs : List Char} (exponent : Exponent cs) :
    ∀ c ∈ cs.head?, c.isDigit = false := by
  cases exponent with
  | absent => simp
  | power sign marked _ _ => rcases marked with rfl | rfl <;> simp +decide

/-- A fraction ends at the first character that is no digit, with which the exponent begins. -/
theorem isTail_iff {cs : List Char} : isTail cs = true ↔
    ∃ fraction exponent, cs = fraction ++ exponent ∧ Fraction fraction ∧ Exponent exponent := by
  constructor
  · intro tail
    unfold isTail at tail
    split at tail
    · rename_i rest
      rw [Bool.and_eq_true, isExponent_iff] at tail
      refine ⟨'.' :: rest.takeWhile Char.isDigit, rest.dropWhile Char.isDigit, ?_, .point ?_,
        tail.2⟩
      · rw [List.cons_append, List.takeWhile_append_dropWhile]
      · exact isDigits_iff.mpr ⟨tail.1, List.all_takeWhile⟩
    · exact ⟨[], cs, rfl, .absent, isExponent_iff.mp tail⟩
  · rintro ⟨fraction, exponent, rfl, fractional, exponential⟩
    cases fractional with
    | absent =>
      have plain := isExponent_iff.mpr exponential
      cases exponential with
      | absent => rfl
      | power sign marked signed digits => rcases marked with rfl | rfl <;> exact plain
    | point digits =>
      obtain ⟨taken, dropped⟩ := digits.takeWhile_append exponential.isDigit_head
      simp only [List.cons_append, isTail, taken, dropped, Bool.and_eq_true]
      exact ⟨(isDigits_iff.mp digits).1, isExponent_iff.mpr exponential⟩

theorem isPlain_iff {cs : List Char} :
    Decimal.isPlain cs = true ↔ ∃ n, cs = Decimal.digits n := by
  simp only [← Decimal.value?_eq_some_iff]
  unfold Decimal.value?
  cases Decimal.isPlain cs <;> simp

/-- The sign apart, a numeral is its whole part and a tail. -/
theorem isUnsigned_iff {cs : List Char} :
    (Decimal.isPlain (cs.takeWhile Char.isDigit) && isTail (cs.dropWhile Char.isDigit)) = true ↔
      ∃ whole fraction exponent, cs = Decimal.digits whole ++ (fraction ++ exponent) ∧
        Fraction fraction ∧ Exponent exponent := by
  rw [Bool.and_eq_true, isPlain_iff, isTail_iff]
  constructor
  · rintro ⟨⟨whole, taken⟩, fraction, exponent, dropped, fractional, exponential⟩
    refine ⟨whole, fraction, exponent, ?_, fractional, exponential⟩
    rw [← taken, ← dropped, List.takeWhile_append_dropWhile]
  · rintro ⟨whole, fraction, exponent, rfl, fractional, exponential⟩
    have ends : ∀ c ∈ (fraction ++ exponent).head?, c.isDigit = false := by
      cases fractional with
      | absent => exact exponential.isDigit_head
      | point _ => simp +decide
    obtain ⟨taken, dropped⟩ := (isDigits_digits whole).takeWhile_append ends
    rw [taken, dropped]
    exact ⟨⟨whole, rfl⟩, fraction, exponent, rfl, fractional, exponential⟩

theorem isNumeral_iff {cs : List Char} : isNumeral cs = true ↔
    ∃ sign whole fraction exponent,
      cs = sign ++ Decimal.digits whole ++ (fraction ++ exponent) ∧ (sign = [] ∨ sign = ['-']) ∧
        Fraction fraction ∧ Exponent exponent := by
  unfold isNumeral
  constructor
  · intro numeral
    obtain ⟨whole, fraction, exponent, spelled, parts⟩ := isUnsigned_iff.mp numeral
    split at spelled
    · exact ⟨['-'], whole, fraction, exponent, by rw [spelled]; rfl, .inr rfl, parts⟩
    · exact ⟨[], whole, fraction, exponent, spelled, .inl rfl, parts⟩
  · rintro ⟨sign, whole, fraction, exponent, spelled, signed, parts⟩
    refine isUnsigned_iff.mpr ⟨whole, fraction, exponent, ?_, parts⟩
    rcases signed with rfl | rfl
    · split
      · exact absurd ((isDigits_digits whole).isDigit_of_append spelled.symm) (by decide)
      · exact spelled
    · rw [spelled]
      rfl

/-- A numeral with a sign, a fraction or an exponent has a character that is no digit. -/
theorem ne_digits {sign fraction exponent : List Char} {whole : Nat}
    (signed : sign = [] ∨ sign = ['-']) (fractional : Fraction fraction)
    (exponential : Exponent exponent) (more : sign ≠ [] ∨ fraction ≠ [] ∨ exponent ≠ [])
    (n : Nat) :
    sign ++ Decimal.digits whole ++ (fraction ++ exponent) ≠ Decimal.digits n := by
  intro same
  have digit : ∀ c ∈ sign ++ (fraction ++ exponent), c.isDigit = true := by
    intro c mem
    refine (isDigits_digits n).2 c ?_
    rw [← same]
    rcases List.mem_append.mp mem with front | behind
    · exact List.mem_append_left _ (List.mem_append_left _ front)
    · exact List.mem_append_right _ behind
  rcases signed with rfl | rfl
  · cases fractional with
    | point _ => exact absurd (digit '.' (by simp)) (by decide)
    | absent =>
      cases exponential with
      | absent => simp at more
      | power _ marked _ _ =>
        rcases marked with rfl | rfl
        · exact absurd (digit 'e' (by simp)) (by decide)
        · exact absurd (digit 'E' (by simp)) (by decide)
  · exact absurd (digit '-' (by simp)) (by decide)

/-- The numeral that characters are read as is the one that they spell. -/
theorem ofChars?_eq_some_iff {cs : List Char} {numeral : Numeral} :
    ofChars? cs = some numeral ↔ numeral.SpelledBy cs := by
  unfold ofChars?
  constructor
  · intro known
    split at known
    · rename_i value read
      cases known
      rw [Decimal.value?_eq_some_iff.mp read]
      exact .natural value
    · rename_i unread
      split at known
      · rename_i numeral
        cases known
        obtain ⟨sign, whole, fraction, exponent, rfl, signed, fractional, exponential⟩ :=
          isNumeral_iff.mp numeral
        -- Were all three empty, the digits alone would have been read as a natural number.
        refine .other sign whole signed fractional exponential ?_
        refine Decidable.byContradiction fun plain => ?_
        simp only [ne_eq, not_or, Decidable.not_not] at plain
        obtain ⟨rfl, rfl, rfl⟩ := plain
        simp at unread
      · cases known
  · intro spelled
    cases spelled with
    | natural value => simp
    | @other sign whole fraction exponent signed fractional exponential more =>
      have unread : Decimal.value? (sign ++ Decimal.digits whole ++ (fraction ++ exponent)) =
          none := by
        refine Option.eq_none_iff_forall_ne_some.mpr fun n read => ?_
        exact ne_digits signed fractional exponential more n (Decimal.value?_eq_some_iff.mp read)
      rw [unread]
      exact if_pos (isNumeral_iff.mpr ⟨sign, whole, _, _, rfl, signed, fractional, exponential⟩)

end Numeral

/-! ### Quoted texts -/

namespace Quoted

/-- The code values of characters leave out the surrogates. -/
theorem toNat_cases (c : Char) : c.toNat < 0xD800 ∨ 0xDFFF < c.toNat ∧ c.toNat < 0x110000 :=
  c.valid

theorem isHigh_toNat (c : Char) : isHigh c.toNat = false := by
  have range := toNat_cases c
  simp only [isHigh, Bool.and_eq_false_iff, decide_eq_false_iff_not]
  omega

theorem isLow_toNat (c : Char) : isLow c.toNat = false := by
  have range := toNat_cases c
  simp only [isLow, Bool.and_eq_false_iff, decide_eq_false_iff_not]
  omega

theorem unitChar?_toNat (c : Char) : unitChar? c.toNat = some c := by
  simp [unitChar?, isHigh_toNat, isLow_toNat]

/-- Unless it is half of a pair, a code value is that of a character. -/
theorem eq_toNat_of_unitChar? {unit : Nat} {c : Char} (small : unit < 0x110000)
    (known : unitChar? unit = some c) : unit = c.toNat := by
  unfold unitChar? at known
  split at known
  · cases known
  · rename_i single
    cases known
    simp only [isHigh, isLow, Bool.or_eq_true, Bool.and_eq_true, decide_eq_true_eq,
      not_or] at single
    have valid : unit.isValidChar := by
      unfold Nat.isValidChar
      omega
    rw [Char.ofNat, dif_pos valid]
    rfl

/-- The characters that code values stand for are found. -/
theorem chars?_of_means {units : List Nat} {cs : List Char} (means : Means units cs) :
    chars? units = some cs := by
  induction means with
  | nil => rfl
  | @char c units cs means ih =>
    cases units with
    | nil =>
      cases means
      simp [chars?, unitChar?_toNat]
    | cons unit units => simp [chars?, isHigh_toNat, unitChar?_toNat, ih]
  | @pair high low units cs small small' means ih =>
    have first : isHigh (0xD800 + high) = true := by
      simp only [isHigh, Bool.and_eq_true, decide_eq_true_eq]
      omega
    have second : isLow (0xDC00 + low) = true := by
      simp only [isLow, Bool.and_eq_true, decide_eq_true_eq]
      omega
    simp only [chars?, first, second, Bool.and_self, if_true, ih, Option.map_some, pairChar,
      Nat.add_sub_cancel_left]

/-- What is found for code values are the characters that they stand for. -/
theorem means_of_chars? {units : List Nat} {cs : List Char}
    (small : ∀ unit ∈ units, unit < 0x110000) (known : chars? units = some cs) :
    Means units cs := by
  fun_induction chars? units generalizing cs with
  | case1 =>
    cases known
    exact .nil
  | case2 unit =>
    obtain ⟨c, single, rfl⟩ := Option.map_eq_some_iff.mp known
    rw [eq_toNat_of_unitChar? (small unit (by simp)) single]
    exact .char c .nil
  | case3 unit next units paired ih =>
    obtain ⟨rest, found, rfl⟩ := Option.map_eq_some_iff.mp known
    simp only [isHigh, isLow, Bool.and_eq_true, decide_eq_true_eq] at paired
    have behind := ih (fun unit mem => small unit (by simp [mem])) found
    have means := @Means.pair (unit - 0xD800) (next - 0xDC00) _ _ (by omega) (by omega) behind
    rwa [Nat.add_sub_cancel' paired.1.1, Nat.add_sub_cancel' paired.2.1] at means
  | case4 unit next units unpaired ih =>
    simp only [Option.bind_eq_bind, Option.bind_eq_some_iff, Option.pure_def,
      Option.some.injEq] at known
    obtain ⟨c, single, rest, known, rfl⟩ := known
    rw [eq_toNat_of_unitChar? (small unit (by simp)) single]
    exact .char c (ih (fun unit mem => small unit (List.mem_cons_of_mem _ mem)) known)

theorem escaped?_eq_some_iff {letter c : Char} :
    escaped? letter = some c ↔ (letter, c) ∈ letters := by
  unfold escaped? letters
  split <;> simp_all [eq_comm]

/-- Hexadecimal digits are found among the first code values. -/
theorem toNat_of_hexValue? {c : Char} {value : Nat} (known : hexValue? c = some value) :
    c.toNat < 128 := by
  unfold hexValue? at known
  have upper : c ≤ 'f' ∨ c ≤ '9' ∨ c ≤ 'F' := by
    split at known
    · exact .inr (.inl (And.right ‹_›))
    · split at known
      · exact .inl (And.right ‹_›)
      · split at known
        · exact .inr (.inr (And.right ‹_›))
        · cases known
  simp only [Char.le_def, UInt32.le_iff_toNat_le] at upper
  have bounds : 'f'.val.toNat = 102 ∧ '9'.val.toNat = 57 ∧ 'F'.val.toNat = 70 := by decide
  have same : c.toNat = c.val.toNat := rfl
  omega

theorem hexValue?_eq_some_iff {c : Char} {value : Nat} :
    hexValue? c = some value ↔ HexDigit value c := by
  constructor
  · intro known
    -- The ranges are short, and so each digit is looked up among the first characters.
    have table : ∀ n : Fin 128, ∀ value ∈ hexValue? (Char.ofNat n.val),
        value < 16 ∧ (Char.ofNat n.val = value.digitChar ∨
          Char.ofNat n.val = value.digitChar.toUpper) := by
      decide
    have row := table ⟨c.toNat, toNat_of_hexValue? known⟩ value
    rw [Char.ofNat_toNat] at row
    exact row known
  · rintro ⟨small, rfl | rfl⟩
    · revert value
      decide
    · revert value
      decide

/-- A code value that is written is that of a character or has sixteen bits. -/
theorem Code.lt {unit : Nat} {cs : List Char} (code : Code unit cs) : unit < 0x110000 := by
  have char : ∀ c : Char, c.toNat < 0x110000 := by
    intro c
    have range := toNat_cases c
    omega
  cases code with
  | plain => exact char _
  | named => exact char _
  | hex i j k l =>
    have bounds := And.intro (And.intro i.1 j.1) (And.intro k.1 l.1)
    omega

theorem Codes.lt {units : List Nat} {cs : List Char} (codes : Codes units cs) :
    ∀ unit ∈ units, unit < 0x110000 := by
  induction codes with
  | nil => simp
  | cons code _ ih =>
    intro unit mem
    rcases List.mem_cons.mp mem with rfl | mem
    · exact code.lt
    · exact ih unit mem

/-- The content of a quoted text is what its code values stand for. -/
theorem Codes.text?_eq_some_iff {units : List Nat} {cs : List Char} (codes : Codes units cs)
    {content : String} : text? units = some content ↔ Means units content.toList := by
  unfold text?
  rw [Option.map_eq_some_iff]
  constructor
  · rintro ⟨chars, known, rfl⟩
    simpa using means_of_chars? codes.lt known
  · intro means
    exact ⟨content.toList, chars?_of_means means, String.ofList_toList⟩

end Quoted

/-! ### Tokens -/

namespace Token

/-- A quoted text stands for what its code values stand for. -/
theorem spelledBy_text {units : List Nat} {cs : List Char} (codes : Quoted.Codes units cs) :
    (text (Quoted.text? units)).SpelledBy ('"' :: cs ++ ['"']) := by
  cases content : Quoted.text? units with
  | some content => exact .text codes (codes.text?_eq_some_iff.mp content)
  | none =>
    refine .broken codes fun chars means => ?_
    have found : Quoted.text? units = some (String.ofList chars) :=
      codes.text?_eq_some_iff.mpr (by simpa using means)
    rw [content] at found
    cases found

theorem codes_of_spelledBy_text {content : Option String} {cs : List Char}
    (spelled : (text content).SpelledBy cs) :
    ∃ units body, cs = '"' :: body ++ ['"'] ∧ Quoted.Codes units body ∧
      Quoted.text? units = content := by
  cases spelled with
  | text codes means => exact ⟨_, _, rfl, codes, codes.text?_eq_some_iff.mpr means⟩
  | broken codes meaningless =>
    refine ⟨_, _, rfl, codes, Option.eq_none_iff_forall_ne_some.mpr fun content found => ?_⟩
    exact meaningless _ (codes.text?_eq_some_iff.mp found)

end Token

end FairMerge.Json
