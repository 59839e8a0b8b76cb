import Stencil.Number.Binary64

/-!
Whole and binary64 numbers on one scale. A quantity is a whole number of units of `2 ^ -1074`, or
lies beyond all of them, or is no number.
-/
namespace Stencil

inductive Quantity where
  | below
  | units (n : Int)
  | above
  | nan
deriving DecidableEq

namespace Quantity

-- Powers are those of the core library, whatever other instances are in scope.
attribute [local instance (high)] instPowNat

def ofInt (n : Int) : Quantity := .units (n * (2 ^ (1074 : Nat) : Nat))

def ofBinary64 : Binary64 → Quantity
  | .finite x => .units x.units
  | .infinite negative => if negative then .below else .above
  | .nan => .nan

/-- What is no number differs from everything, itself included. -/
def same : Quantity → Quantity → Bool
  | nan, _ => false
  | a, b => a == b

def less : Quantity → Quantity → Bool
  | units a, units b => a < b
  | below, units _ => true
  | below, above => true
  | units _, above => true
  | _, _ => false

end Quantity
end Stencil
