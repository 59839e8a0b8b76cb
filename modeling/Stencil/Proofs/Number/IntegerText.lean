import Stencil.Number.Layout
import Stencil.Proofs.Number.Numeral

/-!
The text of whole numbers. It spells a numeral without fraction and exponent, in which only zero
itself begins with a zero, and that numeral has the number for its value; so the text of a whole
number reads back.
-/
namespace Stencil

theorem digits_spelled (m : Nat) : IsDigits (Nat.toDigits 10 m) := by
  constructor
  · exact Nat.toDigits_ne_nil
  · intro c member
    exact Nat.isDigit_of_mem_toDigits (by decide) (by decide) member

theorem leading_digit {m : Nat} (positive : 0 < m) : (Nat.toDigits 10 m).head? ≠ some '0' := by
  induction m using Nat.strongRecOn with
  | ind m ih =>
    by_cases small : m < 10
    · rw [Nat.toDigits_of_lt_base small]
      have digits : ∀ d < 10, 0 < d → d.digitChar ≠ '0' := by decide
      simpa using digits m small positive
    · have quotient : 0 < m / 10 := by omega
      have front := ih (m / 10) (by omega) quotient
      obtain ⟨d, rest, shape⟩ :=
        List.exists_cons_of_ne_nil (Nat.toDigits_ne_nil (b := 10) (n := m / 10))
      rw [Nat.toDigits_of_base_le (by decide) (by omega), shape]
      rw [shape] at front
      simpa using front

theorem no_superfluous_zero {m : Nat} (several : 1 < (Nat.toDigits 10 m).length) :
    (Nat.toDigits 10 m).head? ≠ some '0' := by
  cases m with
  | zero => simp at several
  | succ m => exact leading_digit (Nat.succ_pos m)

namespace Numeral

def ofInt (n : Int) : Numeral := ⟨n < 0, Nat.toDigits 10 n.natAbs, [], none⟩

theorem of_int_value (n : Int) : (ofInt n).toInt = n := by
  simp only [toInt, ofInt, digitsValue, Nat.ofDigitChars_ten_toDigits, signed, decide_eq_true_eq]
  split <;> omega

theorem integer_text_spells (n : Int) : (ofInt n).Spells (integerText n) := by
  rw [ofInt, ← spells_integer_iff]
  unfold integerText signText
  by_cases negative : n < 0
  · simpa [negative] using SpellsInteger.parts .minus (digits_spelled n.natAbs)
  · simpa [negative] using SpellsInteger.parts .plain (digits_spelled n.natAbs)

theorem integer_text_reads (n : Int) : read? (integerText n) = some (ofInt n) :=
  read_complete (integer_text_spells n)

end Numeral

theorem integer_text_char {n : Int} {c : Char} (member : c ∈ integerText n) :
    c = '-' ∨ c.isDigit = true := by
  have digits := (digits_spelled n.natAbs).each
  unfold integerText signText at member
  split at member
  · rcases List.mem_cons.mp member with minus | digit
    · exact .inl minus
    · exact .inr (digits c digit)
  · exact .inr (digits c member)

end Stencil
