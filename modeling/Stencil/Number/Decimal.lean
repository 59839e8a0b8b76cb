import Stencil.Number.Binary64

/-!
Decimal numbers and their nearest binary64 number.
-/
namespace Stencil

/-- `± digits * 10 ^ exponent`. -/
structure Decimal where
  negative : Bool
  digits : Nat
  exponent : Int
deriving DecidableEq

namespace Decimal

-- Powers are those of the core library, whatever other instances are in scope.
attribute [local instance (high)] instPowNat

/-- The power of ten just above the magnitude of a decimal that is not zero. -/
def order (d : Decimal) : Int := d.exponent + (Nat.toDigits 10 d.digits).length

/-- The nearest binary64 number, ties to the even significand. A magnitude from `10 ^ 309` on
is infinite and one below `10 ^ -324` is zero, so no power of ten is formed for an exponent
out of reach. -/
def toBinary64 (d : Decimal) : Binary64 :=
  if d.digits = 0 ∨ d.order < -323 then .zero d.negative
  else if 309 < d.order then .infinite d.negative
  else .ofRatio d.negative (d.digits * 10 ^ d.exponent.toNat * 2 ^ (1074 : Nat))
    (10 ^ (-d.exponent).toNat)

end Decimal
end Stencil
