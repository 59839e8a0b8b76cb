/-!
Binary floating-point numbers of 64 bits, exactly. A magnitude is a natural number of
`2 ^ -1074`, the least positive one, so rounding and comparison are arithmetic on whole
numbers. Numbers are read, compared and written here; they are not computed with.
-/
namespace Stencil

-- Powers are those of the core library, whatever other instances are in scope.
attribute [local instance (high)] instPowNat

/-- `a / d` rounded to the nearest natural number, a half to the even neighbour. -/
def roundDiv (a d : Nat) : Nat :=
  if 2 * (a % d) < d then a / d
  else if d < 2 * (a % d) then a / d + 1
  else a / d + (a / d) % 2

theorem round_div_le {a d : Nat} (h : 0 < d) : 2 * d * roundDiv a d ≤ 2 * a + d := by
  have := Nat.div_add_mod a d
  have := Nat.mod_lt a h
  unfold roundDiv
  split
  · grind
  · split
    · grind
    · have : a / d % 2 < 2 := Nat.mod_lt _ (by decide)
      have : 2 * (a % d) = d := by omega
      have : d * (a / d % 2) ≤ d * 1 := Nat.mul_le_mul_left d (by omega)
      grind

theorem le_round_div {a d : Nat} (h : 0 < d) : 2 * a ≤ 2 * d * roundDiv a d + d := by
  have := Nat.div_add_mod a d
  have := Nat.mod_lt a h
  unfold roundDiv
  split
  · grind
  · split
    · grind
    · have : 2 * (a % d) = d := by omega
      have : d * 0 ≤ d * (a / d % 2) := Nat.mul_le_mul_left d (by omega)
      grind

theorem round_div_tie_even {a d : Nat} (h : 2 * (a % d) = d) : roundDiv a d % 2 = 0 := by
  rw [roundDiv, if_neg (by omega), if_neg (by omega)]
  omega

/-- The one representation of each finite magnitude `significand * 2 ^ scale * 2 ^ -1074`. -/
def Binary64.Canonical (significand scale : Nat) : Prop :=
  significand < 2 ^ (53 : Nat) ∧ scale ≤ 2045 ∧ (scale = 0 ∨ 2 ^ (52 : Nat) ≤ significand)

instance (significand scale : Nat) : Decidable (Binary64.Canonical significand scale) := by
  unfold Binary64.Canonical; infer_instance

structure Binary64.Finite where
  negative : Bool
  significand : Nat
  scale : Nat
  canonical : Binary64.Canonical significand scale
deriving DecidableEq

inductive Binary64 where
  | finite (x : Binary64.Finite)
  | infinite (negative : Bool)
  | nan
deriving DecidableEq

namespace Binary64

/-- The magnitude in units of `2 ^ -1074`. -/
def Finite.magnitude (x : Finite) : Nat := x.significand * 2 ^ x.scale

/-- The value in units of `2 ^ -1074`; both zeros are `0`. -/
def Finite.units (x : Finite) : Int := if x.negative then -(x.magnitude : Int) else x.magnitude

def zero (negative : Bool) : Binary64 := .finite ⟨negative, 0, 0, by decide⟩

def isFinite : Binary64 → Bool
  | .finite _ => true
  | _ => false

/-- Rounds the magnitude `a / d`, given in units of `2 ^ -1074`, to 53 significant bits.
A significand that rounds up to `2 ^ 53` carries into the next scale; a scale above the
greatest is infinite. -/
def ofRatio (negative : Bool) (a d : Nat) : Binary64 :=
  let scale := (a / d).log2 - 52
  let significand := roundDiv a (d * 2 ^ scale)
  if h : Canonical significand scale then .finite ⟨negative, significand, scale, h⟩
  else if h : significand = 2 ^ (53 : Nat) ∧ scale < 2045 then
    .finite ⟨negative, 2 ^ (52 : Nat), scale + 1, by unfold Canonical; omega⟩
  else .infinite negative

end Binary64
end Stencil
