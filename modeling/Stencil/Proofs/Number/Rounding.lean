import Mathlib.Algebra.Order.Field.Rat
import Mathlib.Algebra.Order.Ring.Abs
import Mathlib.Tactic.FieldSimp
import Mathlib.Tactic.Linarith
import Mathlib.Tactic.NormNum
import Mathlib.Tactic.Positivity
import Mathlib.Tactic.Ring
import Stencil.Number.Binary64

/-!
Rounding to binary64 numbers, against exact rationals. A ratio rounds to the number whose magnitude
is nearest to it, and of two that are as near to the one with an even significand. It is infinite
from `2 ^ 1024 - 2 ^ 970` on, half a unit above the greatest number.
-/
namespace Stencil

-- Powers are those of the core library, as where numbers are rounded.
attribute [local instance (high)] instPowNat

section Quotients

variable {a d : Nat} (positive : 0 < d)
include positive

theorem round_div_near : |(roundDiv a d : ℚ) - a / d| ≤ 1 / 2 := by
  have divisor : (0 : ℚ) < d := Nat.cast_pos.mpr positive
  have above : ((2 * d * roundDiv a d : Nat) : ℚ) ≤ (2 * a + d : Nat) :=
    Nat.cast_le.mpr (round_div_le positive)
  have below : ((2 * a : Nat) : ℚ) ≤ (2 * d * roundDiv a d + d : Nat) :=
    Nat.cast_le.mpr (le_round_div positive)
  push_cast at above below
  have lower : (roundDiv a d : ℚ) - 1 / 2 ≤ a / d := by
    rw [le_div_iff₀ divisor]
    linarith
  have upper : (a : ℚ) / d ≤ roundDiv a d + 1 / 2 := by
    rw [div_le_iff₀ divisor]
    linarith
  rw [abs_le]
  constructor <;> linarith

theorem round_div_even (half : |(roundDiv a d : ℚ) - a / d| = 1 / 2) : roundDiv a d % 2 = 0 := by
  have divisor : (0 : ℚ) < d := Nat.cast_pos.mpr positive
  have parts : (a : ℚ) / d = (a / d : Nat) + ((a % d : Nat) : ℚ) / d := by
    have whole : (a : ℚ) = d * (a / d : Nat) + (a % d : Nat) := by
      exact_mod_cast (Nat.div_add_mod a d).symm
    field_simp
    exact whole
  by_cases low : 2 * (a % d) < d
  · have short : ((a % d : Nat) : ℚ) / d < 1 / 2 := by
      rw [div_lt_iff₀ divisor]
      have : ((2 * (a % d) : Nat) : ℚ) < d := Nat.cast_lt.mpr low
      push_cast at this ⊢
      linarith
    have rest : (0 : ℚ) ≤ ((a % d : Nat) : ℚ) / d := by positivity
    rw [roundDiv, if_pos low, parts, sub_add_cancel_left, abs_neg, abs_of_nonneg rest] at half
    linarith
  · by_cases high : d < 2 * (a % d)
    · have long : 1 / 2 < ((a % d : Nat) : ℚ) / d := by
        rw [lt_div_iff₀ divisor]
        have : (d : ℚ) < ((2 * (a % d) : Nat) : ℚ) := Nat.cast_lt.mpr high
        push_cast at this ⊢
        linarith
      have rest : ((a % d : Nat) : ℚ) / d ≤ 1 := by
        rw [div_le_one divisor]
        exact Nat.cast_le.mpr (Nat.mod_lt a positive).le
      rw [roundDiv, if_neg low, if_pos high, parts, Nat.cast_add, Nat.cast_one,
        add_sub_add_left_eq_sub, abs_of_nonneg (by linarith)] at half
      linarith
    · exact round_div_tie_even (by omega)

end Quotients

theorem whole_nearest {m k : Nat} {t : ℚ} (near : |(m : ℚ) - t| ≤ 1 / 2) (other : k ≠ m) :
    |(m : ℚ) - t| ≤ |(k : ℚ) - t| ∧ (|(k : ℚ) - t| = |(m : ℚ) - t| → |(m : ℚ) - t| = 1 / 2) := by
  have apart : (1 : ℚ) ≤ |(k : ℚ) - m| := by
    have whole : (1 : Int) ≤ |(k : Int) - m| := Int.one_le_abs (by omega)
    exact_mod_cast whole
  have detour : |(k : ℚ) - m| ≤ |(k : ℚ) - t| + |(m : ℚ) - t| := by
    rw [abs_sub_comm (m : ℚ) t]
    exact abs_sub_le _ _ _
  constructor
  · linarith
  · intro same
    linarith

namespace Binary64

def least : ℚ := 1 / 2 ^ (1074 : Nat)

def Finite.absolute (x : Finite) : ℚ := x.magnitude * least

/-- The number has the sign and rounds the magnitude: no other one is nearer, and if one is as near
the significand is even. -/
structure Finite.Rounds (x : Finite) (negative : Bool) (q : ℚ) : Prop where
  sign : x.negative = negative
  nearest : ∀ y : Finite, |x.absolute - q| ≤ |y.absolute - q|
  even : ∀ y : Finite, y.absolute ≠ x.absolute → |y.absolute - q| = |x.absolute - q| →
    x.significand % 2 = 0

def spacing (scale : Nat) : ℚ := 2 ^ scale * least

theorem least_pos : 0 < least := by
  unfold least
  positivity

theorem spacing_pos (scale : Nat) : 0 < spacing scale :=
  mul_pos (by positivity) least_pos

theorem absolute_eq (x : Finite) : x.absolute = x.significand * spacing x.scale := by
  simp only [Finite.absolute, Finite.magnitude, spacing, Nat.cast_mul, Nat.cast_pow, Nat.cast_ofNat]
  ring

theorem spacing_add (scale more : Nat) : spacing (scale + more) = 2 ^ more * spacing scale := by
  simp only [spacing, pow_add]
  ring

theorem on_grid_or_below (y : Finite) (scale : Nat) :
    (∃ k : Nat, y.absolute = k * spacing scale) ∨
      0 < scale ∧ y.absolute < 2 ^ 52 * spacing scale := by
  rw [absolute_eq]
  have bound := y.canonical.1
  rcases Nat.lt_or_ge y.scale scale with smaller | greater
  · right
    refine ⟨by omega, ?_⟩
    obtain ⟨more, rfl⟩ := Nat.exists_eq_add_of_lt smaller
    have cast : (y.significand : ℚ) < 2 ^ 53 := by exact_mod_cast bound
    have wider : (1 : ℚ) ≤ 2 ^ more := one_le_pow₀ (by norm_num)
    have step := spacing_pos y.scale
    rw [Nat.add_assoc, spacing_add, pow_succ (2 : ℚ) more]
    calc (y.significand : ℚ) * spacing y.scale
        < 2 ^ 53 * spacing y.scale := mul_lt_mul_of_pos_right cast step
      _ = 2 ^ 52 * (1 * 2 * spacing y.scale) := by ring
      _ ≤ 2 ^ 52 * (2 ^ more * 2 * spacing y.scale) := by gcongr
  · left
    obtain ⟨more, greater⟩ := Nat.exists_eq_add_of_le greater
    refine ⟨y.significand * 2 ^ more, ?_⟩
    rw [greater, spacing_add]
    push_cast
    ring

theorem distance_on_grid (m t : ℚ) (scale : Nat) :
    |m * spacing scale - t * spacing scale| = |m - t| * spacing scale := by
  rw [← sub_mul, abs_mul, abs_of_pos (spacing_pos scale)]

section Grid

variable {scale m : Nat} {t : ℚ} (near : |(m : ℚ) - t| ≤ 1 / 2)
include near

theorem grid_nearest {k : Nat} (other : k ≠ m) :
    |m * spacing scale - t * spacing scale| ≤ |k * spacing scale - t * spacing scale| ∧
      (|k * spacing scale - t * spacing scale| = |m * spacing scale - t * spacing scale| →
        |(m : ℚ) - t| = 1 / 2) := by
  have step := spacing_pos scale
  obtain ⟨nearest, tie⟩ := whole_nearest near other
  rw [distance_on_grid, distance_on_grid]
  constructor
  · exact mul_le_mul_of_nonneg_right nearest step.le
  · intro same
    exact tie (mul_right_cancel₀ step.ne' same)

theorem below_farther {v : ℚ} (full : 2 ^ 52 ≤ t) (below : v < 2 ^ 52 * spacing scale) :
    |m * spacing scale - t * spacing scale| < |v - t * spacing scale| := by
  have step := spacing_pos scale
  have first : |(m : ℚ) - t| ≤ t - 2 ^ 52 := by
    have distance : |((2 ^ 52 : Nat) : ℚ) - t| = t - 2 ^ 52 := by
      rw [Nat.cast_pow, Nat.cast_ofNat, abs_sub_comm, abs_of_nonneg (by linarith)]
    by_cases same : 2 ^ 52 = m
    · rw [← distance, same]
    · exact distance ▸ (whole_nearest near same).1
  have between : 2 ^ 52 * spacing scale ≤ t * spacing scale :=
    mul_le_mul_of_nonneg_right full step.le
  rw [distance_on_grid]
  calc |(m : ℚ) - t| * spacing scale
      ≤ (t - 2 ^ 52) * spacing scale := mul_le_mul_of_nonneg_right first step.le
    _ = t * spacing scale - 2 ^ 52 * spacing scale := sub_mul _ _ _
    _ < t * spacing scale - v := by linarith
    _ = |v - t * spacing scale| := by rw [abs_sub_comm, abs_of_pos (by linarith)]

theorem rounds_of_grid {x : Finite} (full : 0 < scale → 2 ^ 52 ≤ t)
    (rounded : x.absolute = m * spacing scale)
    (even : |(m : ℚ) - t| = 1 / 2 → x.significand % 2 = 0) :
    x.Rounds x.negative (t * spacing scale) := by
  refine ⟨rfl, ?_, ?_⟩
  · intro y
    rw [rounded]
    rcases on_grid_or_below y scale with ⟨k, grid⟩ | ⟨positive, below⟩
    · rw [grid]
      by_cases same : k = m
      · rw [same]
      · exact (grid_nearest near same).1
    · exact (below_farther near (full positive) below).le
  · intro y apart same
    rw [rounded] at apart same
    rcases on_grid_or_below y scale with ⟨k, grid⟩ | ⟨positive, below⟩
    · rw [grid] at apart same
      have other : k ≠ m := by
        intro equal
        exact apart (by rw [equal])
      exact even ((grid_nearest near other).2 same)
    · exact absurd same (below_farther near (full positive) below).ne'

end Grid

/-- The magnitude from which on numbers round to infinity. -/
def overflow : ℚ := 2 ^ (1024 : Nat) - 2 ^ (970 : Nat)

theorem overflow_eq : overflow = (2 ^ 53 - 1 / 2) * spacing 2045 := by
  have greatest : spacing 2045 = 2 ^ (971 : Nat) := by
    rw [spacing, least, show (2045 : Nat) = 971 + 1074 from rfl, pow_add, mul_assoc,
      mul_one_div_cancel (by positivity), mul_one]
  have whole : (2 : ℚ) ^ (1024 : Nat) = 2 ^ 53 * 2 ^ (971 : Nat) := by rw [← pow_add]
  have half : (2 : ℚ) ^ (971 : Nat) = 2 ^ (970 : Nat) * 2 := pow_succ 2 970
  rw [greatest, overflow, whole, sub_mul, half]
  generalize (2 : ℚ) ^ (970 : Nat) = p
  ring

section Scale

variable {scale m : Nat} {t : ℚ} (near : |(m : ℚ) - t| ≤ 1 / 2)
include near

theorem rounded_le (short : t < 2 ^ 53) : m ≤ 2 ^ 53 := by
  have bounds := abs_le.mp near
  have cast : (m : ℚ) < (2 ^ 53 + 1 : Nat) := by
    push_cast
    linarith
  have := Nat.cast_lt.mp cast
  omega

theorem le_rounded (full : 2 ^ 52 ≤ t) : 2 ^ 52 ≤ m := by
  have bounds := abs_le.mp near
  have cast : ((2 ^ 52 : Nat) : ℚ) < (m + 1 : Nat) := by
    push_cast
    linarith
  have := Nat.cast_lt.mp cast
  omega

theorem rounded_below_iff (even : |(m : ℚ) - t| = 1 / 2 → m % 2 = 0) :
    t < 2 ^ 53 - 1 / 2 ↔ m < 2 ^ 53 := by
  have bounds := abs_le.mp near
  constructor
  · intro below
    have cast : (m : ℚ) < (2 ^ 53 : Nat) := by
      push_cast
      linarith
    exact Nat.cast_lt.mp cast
  · intro below
    have cast : (m : ℚ) ≤ (2 ^ 53 - 1 : Nat) := Nat.cast_le.mpr (by omega)
    push_cast at cast
    by_contra beyond
    -- the greatest significand is odd, so half a unit above it rounds up
    have last : (m : ℚ) = (2 ^ 53 - 1 : Nat) := by
      push_cast
      linarith
    have half : |(m : ℚ) - t| = 1 / 2 := by
      rw [abs_sub_comm, abs_of_nonneg (by linarith)]
      linarith
    have := Nat.cast_inj.mp last
    have := even half
    omega

/-- Magnitudes below the overflow are those of a lower scale than the greatest, and those of the
greatest scale that do not round up to the next one. -/
theorem below_overflow_iff (short : t < 2 ^ 53) (full : 0 < scale → 2 ^ 52 ≤ t)
    (even : |(m : ℚ) - t| = 1 / 2 → m % 2 = 0) :
    t * spacing scale < overflow ↔ scale < 2045 ∨ scale = 2045 ∧ m < 2 ^ 53 := by
  rw [overflow_eq]
  rcases Nat.lt_trichotomy scale 2045 with lower | rfl | higher
  · obtain ⟨more, total⟩ := Nat.exists_eq_add_of_lt lower
    have step := spacing_pos scale
    have wider : (1 : ℚ) ≤ 2 ^ more := one_le_pow₀ (by norm_num)
    refine iff_of_true ?_ (.inl lower)
    rw [total, Nat.add_assoc, spacing_add, pow_succ (2 : ℚ) more]
    calc t * spacing scale
        < 2 ^ 53 * spacing scale := mul_lt_mul_of_pos_right short step
      _ ≤ (2 ^ 53 - 1 / 2) * (1 * 2 * spacing scale) := by linarith
      _ ≤ (2 ^ 53 - 1 / 2) * (2 ^ more * 2 * spacing scale) := by gcongr
  · rw [mul_lt_mul_iff_left₀ (spacing_pos 2045), rounded_below_iff near even]
    omega
  · obtain ⟨more, rfl⟩ := Nat.exists_eq_add_of_lt higher
    have step := spacing_pos 2045
    have wider : (1 : ℚ) ≤ 2 ^ more := one_le_pow₀ (by norm_num)
    have large := full (by omega)
    refine iff_of_false ?_ (by omega)
    rw [not_lt, Nat.add_assoc, spacing_add, pow_succ (2 : ℚ) more]
    generalize spacing 2045 = widest at step ⊢
    calc (2 ^ 53 - 1 / 2) * widest
        ≤ 2 ^ 52 * (1 * 2 * widest) := by linarith
      _ ≤ t * (2 ^ more * 2 * widest) := by gcongr

end Scale

section Ratio

variable (negative : Bool) {a d scale m : Nat} (chosen : (a / d).log2 - 52 = scale)
  (rounded : roundDiv a (d * 2 ^ scale) = m) (small : m ≤ 2 ^ 53)
include chosen rounded small

theorem of_ratio_finite (large : 0 < scale → 2 ^ 52 ≤ m)
    (fits : scale < 2045 ∨ scale = 2045 ∧ m < 2 ^ 53) :
    ∃ x : Finite, ofRatio negative a d = .finite x ∧ x.negative = negative ∧
      x.absolute = m * spacing scale ∧ (m % 2 = 0 → x.significand % 2 = 0) := by
  by_cases carried : m = 2 ^ 53
  · have whole : ¬ Canonical m scale := fun canonical => by
      have := canonical.1
      omega
    have lower : m = 2 ^ 53 ∧ scale < 2045 := by omega
    have next : Canonical (2 ^ 52) (scale + 1) := by
      unfold Canonical
      omega
    have even : 2 ^ 52 % 2 = 0 := by decide
    refine ⟨⟨negative, 2 ^ 52, scale + 1, next⟩, ?_, rfl, ?_, fun _ => even⟩
    · simp only [ofRatio, chosen, rounded]
      rw [dif_neg whole, dif_pos lower]
    · rw [absolute_eq, spacing_add, carried]
      push_cast
      ring
  · have canonical : Canonical m scale := by
      unfold Canonical
      omega
    refine ⟨⟨negative, m, scale, canonical⟩, ?_, rfl, absolute_eq _, id⟩
    simp only [ofRatio, chosen, rounded]
    rw [dif_pos canonical]

theorem of_ratio_infinite (beyond : ¬ (scale < 2045 ∨ scale = 2045 ∧ m < 2 ^ 53)) :
    ofRatio negative a d = .infinite negative := by
  have whole : ¬ Canonical m scale := fun canonical => by
    have := canonical.1
    have := canonical.2.1
    omega
  have last : ¬ (m = 2 ^ 53 ∧ scale < 2045) := by omega
  simp only [ofRatio, chosen, rounded]
  rw [dif_neg whole, dif_neg last]

end Ratio

theorem scaled_bounds {a d scale : Nat} (positive : 0 < d)
    (chosen : (a / d).log2 - 52 = scale) :
    (a : ℚ) / (d * 2 ^ scale : Nat) < 2 ^ 53 ∧
      (0 < scale → 2 ^ 52 ≤ (a : ℚ) / (d * 2 ^ scale : Nat)) := by
  have divisor : (0 : ℚ) < (d * 2 ^ scale : Nat) :=
    Nat.cast_pos.mpr (Nat.mul_pos positive (Nat.two_pow_pos scale))
  constructor
  · have top : 2 ^ ((a / d).log2 + 1) ≤ 2 ^ (53 + scale) := by
      apply Nat.pow_le_pow_right (by decide)
      omega
    have bound : a / d < 2 ^ (53 + scale) := Nat.lt_of_lt_of_le Nat.lt_log2_self top
    rw [Nat.div_lt_iff_lt_mul positive, Nat.pow_add] at bound
    rw [div_lt_iff₀ divisor]
    have cast : (a : ℚ) < (2 ^ 53 * 2 ^ scale * d : Nat) := Nat.cast_lt.mpr bound
    push_cast at cast ⊢
    linarith
  · intro above
    have bottom : 2 ^ (52 + scale) ≤ a / d := by
      rw [show 52 + scale = (a / d).log2 by omega]
      apply Nat.log2_self_le
      intro zero
      rw [zero, Nat.log2_zero] at chosen
      omega
    rw [Nat.le_div_iff_mul_le positive, Nat.pow_add] at bottom
    rw [le_div_iff₀ divisor]
    have cast : ((2 ^ 52 * 2 ^ scale * d : Nat) : ℚ) ≤ a := Nat.cast_le.mpr bottom
    push_cast at cast ⊢
    linarith

/-- A ratio below the overflow rounds to a number; from there on it is infinite. -/
theorem of_ratio_rounds (negative : Bool) (a : Nat) {d : Nat} (positive : 0 < d) :
    (a / d * least < overflow →
      ∃ x : Finite, ofRatio negative a d = .finite x ∧ x.Rounds negative (a / d * least)) ∧
    (overflow ≤ a / d * least → ofRatio negative a d = .infinite negative) := by
  generalize chosen : (a / d).log2 - 52 = scale
  generalize rounded : roundDiv a (d * 2 ^ scale) = m
  have divisor : 0 < d * 2 ^ scale := Nat.mul_pos positive (Nat.two_pow_pos scale)
  obtain ⟨short, full⟩ := scaled_bounds positive chosen
  have near := round_div_near (a := a) divisor
  have even := round_div_even (a := a) divisor
  have scaled : (a / d * least : ℚ) = a / (d * 2 ^ scale : Nat) * spacing scale := by
    rw [spacing]
    push_cast
    field_simp
  rw [rounded] at near even
  rw [scaled]
  have small := rounded_le near short
  have below := below_overflow_iff near short full even
  constructor
  · intro inside
    obtain ⟨x, outcome, sign, absolute, kept⟩ := of_ratio_finite negative chosen
      rounded small (fun above => le_rounded near (full above)) (below.mp inside)
    have rounds := rounds_of_grid near full absolute fun half => kept (even half)
    rw [sign] at rounds
    exact ⟨x, outcome, rounds⟩
  · intro beyond
    apply of_ratio_infinite negative chosen rounded small
    rw [← below, not_lt]
    exact beyond

end Binary64
end Stencil
