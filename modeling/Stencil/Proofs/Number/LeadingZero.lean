import Stencil.Proofs.Number.IntegerText

/-!
Zeros in front of a number. The text of the number that digits denote is these digits without their
superfluous zeros, and a zero is written without a sign; so a text of a whole number is the text of
its value if and only if nothing in it is superfluous.
-/
namespace Stencil

theorem IsDigits.tail {c d : Char} {rest : List Char} (digits : IsDigits (c :: d :: rest)) :
    IsDigits (d :: rest) := by
  constructor
  · simp
  · intro e member
    exact digits.each e (List.mem_cons_of_mem c member)

namespace Numeral

/-- The digits without the zeros in front of them, of which the last digit is none. -/
def dropZeros : List Char → List Char
  | '0' :: c :: rest => dropZeros (c :: rest)
  | digits => digits

/-- A whole number as it is written once nothing in it is superfluous. -/
def plainInteger (negative : Bool) (digits : List Char) : List Char :=
  signText (negative && dropZeros digits != ['0']) (dropZeros digits)

def LeadsWithZero (digits : List Char) : Prop := 1 < digits.length ∧ digits.head? = some '0'

def IsZero (digits : List Char) : Prop := ∀ c ∈ digits, c = '0'

theorem SpellsInteger.digits {negative : Bool} {digits text : List Char}
    (whole : SpellsInteger negative digits text) : IsDigits digits := by
  cases whole with
  | parts signed behind => exact behind

theorem digit_bounds {c : Char} (digit : c.isDigit) : 48 ≤ c.toNat ∧ c.toNat ≤ 57 :=
  Char.isDigit_iff_toNat.mp digit

theorem digit_char_of_digit {c : Char} (digit : c.isDigit) : (c.toNat - 48).digitChar = c := by
  have bounds := digit_bounds digit
  apply Char.toNat_inj.mp
  rw [Nat.toNat_digitChar_of_lt_ten (by omega)]
  omega

theorem text_before_digits {m : Nat} (positive : 0 < m) {digits : List Char}
    (each : ∀ c ∈ digits, c.isDigit) :
    Nat.toDigits 10 (Nat.ofDigitChars 10 digits m) = Nat.toDigits 10 m ++ digits := by
  induction digits generalizing m with
  | nil => simp
  | cons c digits ih =>
    have digit := each c (List.mem_cons_self ..)
    have bounds := digit_bounds digit
    have others : ∀ d ∈ digits, d.isDigit := fun d member => each d (List.mem_cons_of_mem c member)
    have small : c.toNat - 48 < 10 := by omega
    have units : Nat.toDigits 10 (c.toNat - 48) = [c] := by
      rw [Nat.toDigits_of_lt_base small, digit_char_of_digit digit]
    have joined := Nat.toDigits_append_toDigits (by decide) positive small
    rw [Nat.ofDigitChars_cons, ih (by omega) others]
    change Nat.toDigits 10 (10 * m + (c.toNat - 48)) ++ digits = _
    rw [← joined, units, List.append_assoc]
    rfl

theorem text_of_digits {digits : List Char} (spelled : IsDigits digits) :
    Nat.toDigits 10 (digitsValue digits) = dropZeros digits := by
  fun_induction dropZeros digits with
  | case1 c rest ih => exact ih spelled.tail
  | case2 digits plain =>
    obtain ⟨c, rest, rfl⟩ := List.exists_cons_of_ne_nil spelled.not_empty
    have digit := spelled.each c (List.mem_cons_self ..)
    have bounds := digit_bounds digit
    have others : ∀ d ∈ rest, d.isDigit :=
      fun d member => spelled.each d (List.mem_cons_of_mem c member)
    have first : Nat.toDigits 10 (c.toNat - 48) = [c] := by
      rw [Nat.toDigits_of_lt_base (by omega), digit_char_of_digit digit]
    have value : digitsValue (c :: rest) = Nat.ofDigitChars 10 rest (c.toNat - 48) := by
      rw [digitsValue, Nat.ofDigitChars_cons, Nat.mul_zero, Nat.zero_add]
      rfl
    rw [value]
    by_cases zero : c = '0'
    · subst zero
      cases rest with
      | nil => exact first
      | cons d rest => exact absurd rfl (plain d rest)
    · have positive : 0 < c.toNat - 48 := by
        have : c.toNat ≠ 48 := fun same => zero (Char.toNat_inj.mp same)
        omega
      rw [text_before_digits positive others, first]
      rfl

theorem drop_zeros_length (digits : List Char) : (dropZeros digits).length ≤ digits.length := by
  fun_induction dropZeros digits with
  | case1 c rest ih => simp only [List.length_cons] at ih ⊢; omega
  | case2 digits plain => omega

theorem drop_zeros_eq_iff (digits : List Char) :
    dropZeros digits = digits ↔ ¬ LeadsWithZero digits := by
  fun_cases dropZeros digits with
  | case1 c rest =>
    have shorter := drop_zeros_length (c :: rest)
    constructor
    · intro same
      have := congrArg List.length same
      simp only [List.length_cons] at this shorter
      omega
    · intro plain
      exact absurd ⟨by simp, rfl⟩ plain
  | case2 digits plain =>
    simp only [true_iff]
    intro leads
    obtain ⟨several, zero⟩ := leads
    match digits, several, zero with
    | c :: d :: rest, _, zero =>
      cases zero
      exact plain d rest rfl

theorem drop_zeros_zero_iff {digits : List Char} (spelled : IsDigits digits) :
    dropZeros digits = ['0'] ↔ IsZero digits := by
  fun_induction dropZeros digits with
  | case1 c rest ih =>
    rw [ih spelled.tail]
    simp [IsZero]
  | case2 digits plain =>
    constructor
    · rintro rfl
      simp [IsZero]
    · intro zero
      match digits, spelled.not_empty with
      | [c], _ => simp [zero c (List.mem_singleton_self c)]
      | c :: d :: rest, _ =>
        obtain rfl := zero c (List.mem_cons_self ..)
        exact absurd rfl (plain d rest)

theorem digits_value_zero_iff {digits : List Char} (spelled : IsDigits digits) :
    digitsValue digits = 0 ↔ dropZeros digits = ['0'] := by
  rw [← text_of_digits spelled]
  constructor
  · intro zero
    simp [zero]
  · intro zero
    by_cases positive : 0 < digitsValue digits
    · exact absurd (by rw [zero]; rfl) (leading_digit positive)
    · omega

theorem signed_nat_abs (negative : Bool) (m : Nat) : (signed negative m).natAbs = m := by
  unfold signed
  split <;> omega

theorem digit_count_of_digits (negative : Bool) {digits : List Char} (spelled : IsDigits digits) :
    digitCount (signed negative (digitsValue digits)) ≤ digits.length := by
  rw [digitCount, signed_nat_abs, text_of_digits spelled]
  exact drop_zeros_length digits

theorem integer_text_of_digits (negative : Bool) {digits : List Char} (spelled : IsDigits digits) :
    integerText (signed negative (digitsValue digits)) = plainInteger negative digits := by
  have sign : decide (signed negative (digitsValue digits) < 0) =
      (negative && dropZeros digits != ['0']) := by
    rw [Bool.eq_iff_iff, Bool.and_eq_true, bne_iff_ne, ne_eq, ← digits_value_zero_iff spelled,
      decide_eq_true_eq]
    cases negative <;> simp [signed]
    omega
  rw [integerText, signed_nat_abs, sign, text_of_digits spelled, plainInteger]

theorem plain_integer_iff {negative : Bool} {digits text : List Char}
    (whole : SpellsInteger negative digits text) :
    plainInteger negative digits = text ↔
      ¬ LeadsWithZero digits ∧ ¬ (negative = true ∧ IsZero digits) := by
  obtain ⟨signed, behind⟩ := whole
  rw [← drop_zeros_eq_iff, ← drop_zeros_zero_iff behind]
  unfold plainInteger signText
  cases signed with
  | plain => simp
  | minus =>
    by_cases zero : dropZeros digits = ['0']
    · simp [zero]
    · simp [zero]

end Numeral
end Stencil
