/-! # Decimal numerals

A natural number is written with the fewest decimal digits, and a plain numeral is exactly such a
writing: digits only, at least one, and no zero in front of another digit. -/

namespace FairMerge.Decimal

/-- The digits of a number, most significant first. -/
def digits (n : Nat) : List Char := Nat.toDigits 10 n

/-- The written form of a number. -/
def text (n : Nat) : String := String.ofList (digits n)

/-- Whether the characters are a number's written form. -/
def isPlain (cs : List Char) : Bool :=
  !cs.isEmpty && cs.all Char.isDigit && (cs.head? != some '0' || cs.length == 1)

/-- The number that a plain numeral stands for. -/
def value? (cs : List Char) : Option Nat :=
  if isPlain cs then some (Nat.ofDigitChars 10 cs 0) else none

/-- Only zero is written with a zero in front. -/
theorem head?_digits_of_pos {n : Nat} (pos : 0 < n) : (digits n).head? ≠ some '0' := by
  induction n using Nat.strongRecOn with
  | ind n ih =>
    unfold digits
    by_cases small : n < 10
    · rw [Nat.toDigits_of_lt_base small]
      match n, pos, small with
      | 1, _, _ | 2, _, _ | 3, _, _ | 4, _, _ | 5, _, _ | 6, _, _ | 7, _, _ | 8, _, _ | 9, _, _ =>
        decide
    · rw [Nat.toDigits_of_base_le (by omega) (by omega)]
      have tens := ih (n / 10) (by omega) (by omega)
      unfold digits at tens
      cases written : Nat.toDigits 10 (n / 10) with
      | nil => exact absurd written Nat.toDigits_ne_nil
      | cons c cs => simpa [written] using tens

/-- The written form of a number is a plain numeral. -/
theorem isPlain_digits (n : Nat) : isPlain (digits n) = true := by
  have nonempty : (digits n).isEmpty = false := by
    simp [digits, Nat.toDigits_ne_nil]
  have all : (digits n).all Char.isDigit = true := by
    rw [List.all_eq_true]
    intro c mem
    exact Nat.isDigit_of_mem_toDigits (by omega) (by omega) mem
  have front : ((digits n).head? != some '0' || (digits n).length == 1) = true := by
    rcases Nat.eq_zero_or_pos n with rfl | pos
    · decide
    · simp [head?_digits_of_pos pos]
  simp [isPlain, nonempty, all, front]

/-- What is written for a number stands for that number. -/
@[simp] theorem value?_digits (n : Nat) : value? (digits n) = some n := by
  unfold value?
  rw [if_pos (isPlain_digits n)]
  exact congrArg some Nat.ofDigitChars_ten_toDigits

/-- A digit is the written form of its value. -/
theorem digits_of_isDigit {c : Char} (digit : c.isDigit = true) :
    digits (c.toNat - '0'.toNat) = [c] ∧ c.toNat - '0'.toNat < 10 := by
  have range : 48 ≤ c.toNat ∧ c.toNat ≤ 57 := Char.isDigit_iff_toNat.mp digit
  have small : c.toNat - '0'.toNat < 10 := by
    simp only [show '0'.toNat = 48 from rfl]
    omega
  refine ⟨?_, small⟩
  rw [digits, Nat.toDigits_of_lt_base small]
  have same : (c.toNat - '0'.toNat).digitChar.toNat = c.toNat := by
    rw [Nat.toNat_digitChar_of_lt_ten small]
    simp only [show '0'.toNat = 48 from rfl]
    omega
  rw [Char.toNat_inj.mp same]

/-- Digits behind the written form of a number make the written form of a number. -/
theorem digits_ofDigitChars {n : Nat} (pos : 0 < n) {cs : List Char}
    (all : ∀ c ∈ cs, c.isDigit = true) :
    digits (Nat.ofDigitChars 10 cs n) = digits n ++ cs := by
  induction cs generalizing n with
  | nil => simp
  | cons c cs ih =>
    obtain ⟨written, small⟩ := digits_of_isDigit (all c (by simp))
    have longer : digits (10 * n + (c.toNat - '0'.toNat)) = digits n ++ [c] := by
      rw [← written]
      exact (Nat.toDigits_append_toDigits (by omega) pos small).symm
    rw [Nat.ofDigitChars_cons, ih (by omega) fun d mem => all d (by simp [mem]), longer]
    simp

/-- A plain numeral is the written form of the number that it stands for. -/
theorem value?_eq_some_iff {cs : List Char} {n : Nat} : value? cs = some n ↔ cs = digits n := by
  constructor
  · intro known
    unfold value? at known
    split at known
    · rename_i plain
      cases known
      simp only [isPlain, Bool.and_eq_true, Bool.not_eq_true', List.all_eq_true,
        Bool.or_eq_true, bne_iff_ne, beq_iff_eq] at plain
      obtain ⟨⟨nonempty, all⟩, front⟩ := plain
      cases cs with
      | nil => simp at nonempty
      | cons c cs =>
        obtain ⟨written, small⟩ := digits_of_isDigit (all c (by simp))
        rw [Nat.ofDigitChars_cons, Nat.mul_zero, Nat.zero_add]
        rcases Nat.eq_zero_or_pos (c.toNat - '0'.toNat) with zero | pos
        · have single : (c :: cs).length = 1 := by
            rw [zero] at written
            have head : c = '0' := (List.cons.inj written).1.symm
            simpa [head] using front
          rw [List.length_cons, Nat.add_eq_right, List.length_eq_zero_iff] at single
          rw [single, Nat.ofDigitChars_nil, written]
        · rw [digits_ofDigitChars pos fun d mem => all d (by simp [mem]), written]
          rfl
    · cases known
  · rintro rfl
    exact value?_digits n

end FairMerge.Decimal
