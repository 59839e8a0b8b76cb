/-!
Hexadecimal numerals of a fixed width.
-/
namespace Stencil.Text

-- Powers are those of the core library, whatever other instances are in scope.
attribute [local instance (high)] instPowNat

/-- The last `width` digits of `n`, in lower case. -/
def hex : Nat → Nat → List Char
  | 0, _ => []
  | width + 1, n => hex width (n / 16) ++ [Nat.digitChar (n % 16)]

def hexDigit? (c : Char) : Option Nat :=
  if '0' ≤ c ∧ c ≤ '9' then some (c.toNat - '0'.toNat)
  else if 'a' ≤ c ∧ c ≤ 'f' then some (c.toNat - 'a'.toNat + 10)
  else if 'A' ≤ c ∧ c ≤ 'F' then some (c.toNat - 'A'.toNat + 10)
  else none

def hexValue? (digits : List Char) : Option Nat :=
  digits.foldlM (fun value c => (hexDigit? c).map (16 * value + ·)) 0

theorem length_hex (width n : Nat) : (hex width n).length = width := by
  induction width generalizing n with
  | zero => rfl
  | succ width ih => simp [hex, ih]

theorem hex_digit_of_digit_char {d : Nat} (h : d < 16) : hexDigit? (Nat.digitChar d) = some d := by
  have : ∀ d < 16, hexDigit? (Nat.digitChar d) = some d := by decide
  exact this d h

theorem hex_value_hex {width n : Nat} (h : n < 16 ^ width) : hexValue? (hex width n) = some n := by
  induction width generalizing n with
  | zero => simp at h; simp [h, hex, hexValue?]
  | succ width ih =>
    have hd : n / 16 < 16 ^ width := by
      rw [Nat.div_lt_iff_lt_mul (by decide)]; rwa [Nat.pow_succ] at h
    have := ih hd
    unfold hexValue? at this ⊢
    rw [hex, List.foldlM_append, this]
    simp [hex_digit_of_digit_char (Nat.mod_lt n (by decide)), Nat.div_add_mod]

end Stencil.Text
