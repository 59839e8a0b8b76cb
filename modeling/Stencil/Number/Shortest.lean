import Stencil.Number.Decimal

/-!
The shortest decimal of a binary64 number: of the decimals that read back to it, one with the
fewest digits, and of those the nearest. The search takes one digit, two digits and so on, and
tries the two neighbours of the number on the grid of that many digits.
-/
namespace Stencil.Binary64.Finite

-- Powers are those of the core library, whatever other instances are in scope.
attribute [local instance (high)] instPowNat

def leadingExponent (a d : Nat) : Int :=
  if d ≤ a then ((Nat.toDigits 10 (a / d)).length : Int) - 1
  else -((Nat.toDigits 10 ((d - 1) / a)).length : Int)

/-- The neighbour on the grid of `10 ^ exponent` that reads back to `x`. Of two the nearer is
taken, and at the same distance the even one. -/
def onGrid? (x : Finite) (exponent : Int) : Option Decimal :=
  let a := x.magnitude * 10 ^ (-exponent).toNat
  let d := 2 ^ (1074 : Nat) * 10 ^ exponent.toNat
  let below : Decimal := ⟨x.negative, a / d, exponent⟩
  let above : Decimal := ⟨x.negative, a / d + 1, exponent⟩
  match decide (below.toBinary64 = .finite x), decide (above.toBinary64 = .finite x) with
  | true, true => some ⟨x.negative, roundDiv a d, exponent⟩
  | true, false => some below
  | false, true => some above
  | false, false => none

/-- Seventeen digits always read back; the exact value stands behind the search. -/
def shortest (x : Finite) : Decimal :=
  let leading := leadingExponent x.magnitude (2 ^ (1074 : Nat))
  ((List.range 17).findSome? fun (n : Nat) => x.onGrid? (leading - n)).getD
    ⟨x.negative, x.magnitude * 5 ^ (1074 : Nat), -1074⟩

end Stencil.Binary64.Finite
