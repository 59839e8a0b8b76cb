import Stencil.Number.Quantity
import Stencil.Value.Basic

/-!
Equality of values by what they stand for: numbers are equal if their quantities are, whatever
their kind, booleans count as one and zero, and the order of members is of no account.
-/
namespace Stencil

def Scalar.quantity? : Scalar → Option Quantity
  | .bool b => some (.ofInt (if b then 1 else 0))
  | .int n => some (.ofInt n)
  | .float x => some (.ofBinary64 x)
  | _ => none

def Scalar.same (a b : Scalar) : Bool :=
  match a.quantity?, b.quantity? with
  | some p, some q => p.same q
  | none, none => a == b
  | _, _ => false

namespace Value

mutual

def same : Value → Value → Bool
  | .scalar a, .scalar b => a.same b
  | .array items, .array others => sameItems items others
  | .object members, .object others =>
    members.length == others.length && sameMembers members others
  | _, _ => false

def sameItems : List Value → List Value → Bool
  | [], [] => true
  | item :: items, other :: others => same item other && sameItems items others
  | _, _ => false

def sameMembers : List (Scalar × Value) → List (Scalar × Value) → Bool
  | [], _ => true
  | (key, value) :: members, others =>
    match others.find? fun other => key.same other.1 with
    | some (_, other) => same value other && sameMembers members others
    | none => false

end

end Value
end Stencil
