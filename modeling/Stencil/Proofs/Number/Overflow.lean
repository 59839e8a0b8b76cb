import Mathlib.Algebra.Order.Field.Power
import Stencil.Proofs.Number.Rounding
import Stencil.Proofs.Unquote

/-!
Numbers with a fraction or an exponent, read as binary64 numbers. The value of a numeral is an exact
rational, however many digits it has. The nearest number is found without forming a power of ten
that is out of reach, and a text is refused if and only if its value overflows.
-/
namespace Stencil

-- Powers are those of the core library, as where numbers are rounded.
attribute [local instance (high)] instPowNat

open Binary64 (overflow least Finite)

namespace Decimal

def absolute (d : Decimal) : ℚ := d.digits * 10 ^ d.exponent

theorem digits_length {m : Nat} (positive : 0 < m) :
    10 ^ ((Nat.toDigits 10 m).length - 1) ≤ m ∧ m < 10 ^ (Nat.toDigits 10 m).length := by
  have some_digit : 0 < (Nat.toDigits 10 m).length := Nat.length_toDigits_pos
  constructor
  · by_cases single : (Nat.toDigits 10 m).length = 1
    · rw [single]
      exact positive
    · have shorter := Nat.length_toDigits_le_iff (b := 10) (n := m)
        (k := (Nat.toDigits 10 m).length - 1) (by decide) (by omega)
      omega
  · exact (Nat.length_toDigits_le_iff (by decide) some_digit).mp le_rfl

theorem order_bounds {d : Decimal} (positive : 0 < d.digits) :
    (10 : ℚ) ^ (d.order - 1) ≤ d.absolute ∧ d.absolute < 10 ^ d.order := by
  have some_digit : 0 < (Nat.toDigits 10 d.digits).length := Nat.length_toDigits_pos
  obtain ⟨bottom, top⟩ := digits_length positive
  have power : (0 : ℚ) < 10 ^ d.exponent := by positivity
  have ten : (10 : ℚ) ≠ 0 := by norm_num
  constructor
  · have split : d.order - 1 = ((Nat.toDigits 10 d.digits).length - 1 : Nat) + d.exponent := by
      unfold order
      omega
    have cast : (10 : ℚ) ^ ((Nat.toDigits 10 d.digits).length - 1) ≤ d.digits := by
      exact_mod_cast bottom
    rw [split, zpow_add₀ ten, zpow_natCast, absolute]
    exact mul_le_mul_of_nonneg_right cast power.le
  · have split : d.order = (Nat.toDigits 10 d.digits).length + d.exponent := by
      unfold order
      omega
    have cast : (d.digits : ℚ) < 10 ^ (Nat.toDigits 10 d.digits).length := by exact_mod_cast top
    rw [split, zpow_add₀ ten, zpow_natCast, absolute]
    exact mul_lt_mul_of_pos_right cast power

theorem absolute_ratio (d : Decimal) :
    ((d.digits * 10 ^ d.exponent.toNat * 2 ^ (1074 : Nat) : Nat) : ℚ) /
      (10 ^ (-d.exponent).toNat : Nat) * least = d.absolute := by
  have unit : (2 : ℚ) ^ (1074 : Nat) * least = 1 := mul_one_div_cancel (by positivity)
  have power : (10 : ℚ) ^ d.exponent.toNat / 10 ^ (-d.exponent).toNat = 10 ^ d.exponent := by
    obtain ⟨k, same | same⟩ := d.exponent.eq_nat_or_neg <;> rw [same] <;> simp
  simp only [Nat.cast_mul, Nat.cast_pow, Nat.cast_ofNat]
  rw [absolute, ← power, mul_div_right_comm, mul_assoc, unit, mul_one, mul_div_assoc]

/-- What a decimal comes to as a binary64 number. -/
def Rounded (d : Decimal) (outcome : Binary64) : Prop :=
  (d.absolute < overflow → ∃ x : Finite, outcome = .finite x ∧ x.Rounds d.negative d.absolute) ∧
  (overflow ≤ d.absolute → outcome = .infinite d.negative)

theorem least_lt_overflow : least < overflow := by
  have wider : (1 : ℚ) ≤ 2 ^ (2045 : Nat) := one_le_pow₀ (by norm_num)
  have positive := Binary64.least_pos
  have step : least ≤ Binary64.spacing 2045 := le_mul_of_one_le_left positive.le wider
  rw [Binary64.overflow_eq]
  linarith

theorem cast_pow_le {a b m n : Nat} (powers : a ^ m ≤ b ^ n) : (a : ℚ) ^ m ≤ (b : ℚ) ^ n := by
  exact_mod_cast powers

theorem low_order_small {q : ℚ} {order : Int} (nonneg : 0 ≤ q) (low : order < -323)
    (below : q < 10 ^ order) : 2 * q < least := by
  have powers : (2 : ℚ) ^ (1075 : Nat) ≤ 10 ^ (324 : Nat) := by
    have := cast_pow_le (show 2 ^ 1075 ≤ 10 ^ 324 by decide +kernel)
    rwa [Nat.cast_ofNat, Nat.cast_ofNat] at this
  have order_le : (10 : ℚ) ^ order ≤ 10 ^ (-(324 : Nat) : Int) :=
    zpow_le_zpow_right₀ (by norm_num) (by omega)
  have split : (2 : ℚ) ^ (1075 : Nat) = 2 ^ (1074 : Nat) * 2 := pow_succ 2 1074
  have unit : (0 : ℚ) < 2 ^ (1074 : Nat) := by positivity
  rw [zpow_neg, zpow_natCast] at order_le
  have small : q * 10 ^ (324 : Nat) < 1 := by
    have positive : (0 : ℚ) < 10 ^ (324 : Nat) := by positivity
    rw [← lt_div_iff₀ positive, one_div]
    exact below.trans_le order_le
  rw [split] at powers
  rw [least, lt_div_iff₀ unit]
  generalize (2 : ℚ) ^ (1074 : Nat) = p at powers unit ⊢
  calc 2 * q * p
      = q * (p * 2) := by ring
    _ ≤ q * 10 ^ (324 : Nat) := mul_le_mul_of_nonneg_left powers nonneg
    _ < 1 := small

theorem high_order_large {q : ℚ} {order : Int} (high : 309 < order)
    (above : 10 ^ (order - 1) ≤ q) : overflow ≤ q := by
  have powers : (2 : ℚ) ^ (1024 : Nat) ≤ 10 ^ (309 : Nat) := by
    have := cast_pow_le (show 2 ^ 1024 ≤ 10 ^ 309 by decide +kernel)
    rwa [Nat.cast_ofNat, Nat.cast_ofNat] at this
  have order_le : (10 : ℚ) ^ ((309 : Nat) : Int) ≤ 10 ^ (order - 1) :=
    zpow_le_zpow_right₀ (by norm_num) (by omega)
  have gap : (0 : ℚ) ≤ 2 ^ (970 : Nat) := by positivity
  rw [zpow_natCast] at order_le
  calc overflow
      ≤ 2 ^ (1024 : Nat) := sub_le_self _ gap
    _ ≤ 10 ^ (309 : Nat) := powers
    _ ≤ 10 ^ (order - 1) := order_le
    _ ≤ q := above

theorem zero_rounds {negative : Bool} {q : ℚ} (nonneg : 0 ≤ q) (small : 2 * q < least) :
    (⟨negative, 0, 0, by decide⟩ : Finite).Rounds negative q := by
  have nothing : (⟨negative, 0, 0, by decide⟩ : Finite).absolute = 0 := by
    simp [Finite.absolute, Finite.magnitude]
  refine ⟨rfl, ?_, fun _ _ _ => rfl⟩
  intro y
  rw [nothing, zero_sub, abs_neg, abs_of_nonneg nonneg]
  by_cases zero : y.magnitude = 0
  · simp [Finite.absolute, zero, abs_of_nonneg nonneg]
  · have positive : (1 : ℚ) ≤ y.magnitude := Nat.one_le_cast.mpr (Nat.pos_of_ne_zero zero)
    have far : least ≤ y.absolute := le_mul_of_one_le_left Binary64.least_pos.le positive
    rw [abs_of_nonneg (by linarith)]
    linarith

theorem absolute_nonneg (d : Decimal) : 0 ≤ d.absolute := by
  unfold absolute
  positivity

theorem rounded_zero {d : Decimal} (small : 2 * d.absolute < least) :
    Rounded d (.zero d.negative) := by
  have nonneg := absolute_nonneg d
  have below : d.absolute < overflow := by
    have := least_lt_overflow
    linarith
  constructor
  · intro _
    exact ⟨_, rfl, zero_rounds nonneg small⟩
  · intro beyond
    linarith

/-- Decimals that are not zero and of an order within reach are rounded as ratios; the others are
less than half the least positive number or beyond the overflow. -/
theorem to_binary64_rounds (d : Decimal) : Rounded d d.toBinary64 := by
  unfold toBinary64
  by_cases zero : d.digits = 0
  · have nothing : d.absolute = 0 := by simp [absolute, zero]
    have least := Binary64.least_pos
    rw [if_pos (.inl zero)]
    apply rounded_zero
    linarith
  have positive : 0 < d.digits := Nat.pos_of_ne_zero zero
  obtain ⟨bottom, top⟩ := order_bounds positive
  by_cases low : d.order < -323
  · rw [if_pos (.inr low)]
    exact rounded_zero (low_order_small (absolute_nonneg d) low top)
  rw [if_neg (by omega)]
  by_cases high : 309 < d.order
  · have beyond := high_order_large high bottom
    rw [if_pos high]
    constructor
    · intro below
      linarith
    · intro _
      rfl
  · rw [if_neg high]
    have divisor : 0 < 10 ^ (-d.exponent).toNat := Nat.pow_pos (by decide)
    have rounds := Binary64.of_ratio_rounds d.negative
      (d.digits * 10 ^ d.exponent.toNat * 2 ^ (1074 : Nat)) divisor
    rw [absolute_ratio] at rounds
    exact rounds

end Decimal

namespace Numeral

def power (n : Numeral) : Int :=
  match n.exponent with
  | none => 0
  | some (negative, digits) => signed negative (positionalValue digits)

/-- The exact value: the digits around the point in base ten, times a power of ten. -/
def value (n : Numeral) : ℚ :=
  (if n.negative then -1 else 1) *
    (positionalValue n.whole + positionalValue n.fraction / 10 ^ n.fraction.length) * 10 ^ n.power

theorem exponent_value (n : Numeral) : n.exponentValue = n.power := by
  obtain ⟨negative, whole, fraction, exponent⟩ := n
  cases exponent with
  | none => rfl
  | some power => exact congrArg (signed power.1) (digits_value_positional power.2)

theorem digits_value_append (whole fraction : List Char) :
    digitsValue (whole ++ fraction) =
      10 ^ fraction.length * digitsValue whole + digitsValue fraction := by
  unfold digitsValue
  rw [Nat.ofDigitChars_append, Nat.ofDigitChars_eq_ofDigitChars_zero]

theorem absolute_value (n : Numeral) : |n.value| = n.toDecimal.absolute := by
  have sign : |(if n.negative then -1 else 1 : ℚ)| = 1 := by split <;> simp
  have digits : (0 : ℚ) ≤
      positionalValue n.whole + positionalValue n.fraction / 10 ^ n.fraction.length := by positivity
  have scale : (0 : ℚ) ≤ 10 ^ n.power := by positivity
  have ten : (10 : ℚ) ≠ 0 := by norm_num
  rw [value, abs_mul, abs_mul, sign, one_mul, abs_of_nonneg digits, abs_of_nonneg scale,
    Decimal.absolute, toDecimal, exponent_value, digits_value_append, digits_value_positional,
    digits_value_positional, zpow_sub₀ ten, zpow_natCast]
  push_cast
  field_simp

end Numeral

/-- What is neither a constant nor a whole number is unquoted to a finite number of its sign, the
nearest to its value, if and only if the value is below `2 ^ 1024 - 2 ^ 970`; from there on it is
refused. -/
theorem decimal_unquoted_below_overflow {text : String} {n : Numeral}
    (number : n.Spells text.toList)
    (broken : ∀ negative digits, ¬ Numeral.SpellsInteger negative digits text.toList) :
    ((∃ x, unquote text = .ok (.float x)) ↔ |n.value| < 2 ^ (1024 : Nat) - 2 ^ (970 : Nat)) ∧
    (∀ x, unquote text = .ok (.float x) →
      ∃ y : Finite, x = .finite y ∧ y.Rounds n.negative |n.value|) ∧
    (¬ |n.value| < 2 ^ (1024 : Nat) - 2 ^ (970 : Nat) →
      unquote text = .error (.notScalar text)) := by
  have rounded := Decimal.to_binary64_rounds n.toDecimal
  have outcome : unquote text = if n.toDecimal.toBinary64.isFinite then
      .ok (.float n.toDecimal.toBinary64) else .error (.notScalar text) := by
    rw [unquote_number number, unquoteNumeral, if_neg (point_of_broken number broken)]
  obtain ⟨finite, infinite⟩ := rounded
  rw [← Numeral.absolute_value] at finite infinite
  change |n.value| < 2 ^ (1024 : Nat) - 2 ^ (970 : Nat) → _ at finite
  change 2 ^ (1024 : Nat) - 2 ^ (970 : Nat) ≤ |n.value| → _ at infinite
  by_cases below : |n.value| < 2 ^ (1024 : Nat) - 2 ^ (970 : Nat)
  · obtain ⟨y, found, rounds⟩ := finite below
    have read : unquote text = .ok (.float (.finite y)) := by
      rw [outcome, found]
      rfl
    refine ⟨iff_of_true ⟨_, read⟩ below, ?_, fun above => absurd below above⟩
    intro x same
    rw [read] at same
    cases same
    exact ⟨y, rfl, rounds⟩
  · have refused : unquote text = .error (.notScalar text) := by
      rw [outcome, infinite (not_lt.mp below)]
      rfl
    refine ⟨iff_of_false ?_ below, ?_, fun _ => refused⟩
    · rintro ⟨x, same⟩
      rw [refused] at same
      contradiction
    · intro x same
      rw [refused] at same
      contradiction

section Scaled

def scaledNumeral (mantissa power : List Char) : Numeral :=
  ⟨false, mantissa, [], some (false, power)⟩

variable {mantissa power : List Char}

theorem scaled_numeral_spells (digits : IsDigits mantissa) (behind : IsDigits power) :
    (scaledNumeral mantissa power).Spells (mantissa ++ 'e' :: power) :=
  .parts .plain digits .absent (.signed (.inl rfl) (.inl .plain) behind)

theorem scaled_numeral_broken (digits : IsDigits mantissa) (behind : IsDigits power)
    (negative : Bool) (whole : List Char) :
    ¬ Numeral.SpellsInteger negative whole (mantissa ++ 'e' :: power) := by
  intro integer
  have same := Numeral.spells_unique (Numeral.spells_integer_iff.mp integer)
    (scaled_numeral_spells digits behind)
  cases same

theorem scaled_numeral_below_iff {m k : Nat} (value : positionalValue mantissa = m)
    (exponent : positionalValue power = k) (p q : Nat) :
    |(scaledNumeral mantissa power).value| < 2 ^ q - 2 ^ p ↔ m * 10 ^ k + 2 ^ p < 2 ^ q := by
  have empty : positionalValue [] = 0 := rfl
  have whole : (scaledNumeral mantissa power).value = (m * 10 ^ k : Nat) := by
    simp [scaledNumeral, Numeral.value, Numeral.power, Numeral.signed, value, exponent, empty]
  have nonneg : (0 : ℚ) ≤ (m * 10 ^ k : Nat) := Nat.cast_nonneg _
  rw [whole, abs_of_nonneg nonneg, lt_sub_iff_add_lt]
  exact_mod_cast Iff.rfl

end Scaled

/-- The last mantissa of so many digits that is accepted and the first that is refused, both within
the last unit; and a zero with an exponent out of reach. -/
theorem decimal_unquoted_below_overflow_of_neighbours :
    (∃ x, unquote "179769313486231580793e288" = .ok (.float x)) ∧
    unquote "179769313486231580794e288" = .error (.notScalar "179769313486231580794e288") ∧
    ∃ x, unquote "0e400" = .ok (.float x) := by
  have power : IsDigits "288".toList := ⟨by simp, by simp⟩
  have power_value : positionalValue "288".toList = 288 := by rfl
  refine ⟨?_, ?_, ?_⟩
  · have digits : IsDigits "179769313486231580793".toList := ⟨by simp, by simp⟩
    have digits_value :
        positionalValue "179769313486231580793".toList = 179769313486231580793 := by rfl
    have spelled : Numeral.Spells _ "179769313486231580793e288".toList :=
      scaled_numeral_spells digits power
    have accepts := decimal_unquoted_below_overflow spelled (scaled_numeral_broken digits power)
    have below := scaled_numeral_below_iff digits_value power_value 970 1024
    exact accepts.1.mpr (below.mpr (by decide +kernel))
  · have digits : IsDigits "179769313486231580794".toList := ⟨by simp, by simp⟩
    have digits_value :
        positionalValue "179769313486231580794".toList = 179769313486231580794 := by rfl
    have spelled : Numeral.Spells _ "179769313486231580794e288".toList :=
      scaled_numeral_spells digits power
    have refuses := decimal_unquoted_below_overflow spelled (scaled_numeral_broken digits power)
    have below := scaled_numeral_below_iff digits_value power_value 970 1024
    exact refuses.2.2 (below.not.mpr (by decide +kernel))
  · have digits : IsDigits "0".toList := ⟨by simp, by simp⟩
    have digits_value : positionalValue "0".toList = 0 := by rfl
    have large : IsDigits "400".toList := ⟨by simp, by simp⟩
    have large_value : positionalValue "400".toList = 400 := by rfl
    have spelled : Numeral.Spells _ "0e400".toList := scaled_numeral_spells digits large
    have accepts := decimal_unquoted_below_overflow spelled (scaled_numeral_broken digits large)
    have below := scaled_numeral_below_iff digits_value large_value 970 1024
    exact accepts.1.mpr (below.mpr (by decide +kernel))

end Stencil
