/-!
Slices of a list by a start, a stop and a step, each of them optional. Negative bounds count from
the end, bounds beyond the list are moved to its ends, and a negative step goes backwards.
-/
namespace Stencil.Query

def clampBound (length least greatest bound : Int) : Int :=
  if bound < 0 then max least (bound + length) else min greatest bound

/-- The indexes of a slice, in the order in which it visits them; none for the step zero. -/
def sliceIndexes (length : Nat) (start stop : Option Int) (step : Int) : List Nat :=
  let least : Int := if step < 0 then -1 else 0
  let greatest : Int := if step < 0 then length - 1 else length
  let first := (start.map (clampBound length least greatest)).getD
    (if step < 0 then greatest else least)
  let last := (stop.map (clampBound length least greatest)).getD
    (if step < 0 then least else greatest)
  let distance := if step < 0 then first - last else last - first
  if step = 0 then []
  else (List.range ((distance + step.natAbs - 1) / step.natAbs).toNat).map fun (n : Nat) =>
    (first + n * step).toNat

def slice {α : Type} (items : List α) (start stop step : Option Int) : List α :=
  (sliceIndexes items.length start stop (step.getD 1)).filterMap fun i => items[i]?

def itemAt? {α : Type} (items : List α) (index : Int) : Option α :=
  if 0 ≤ index then items[index.toNat]?
  else if 0 ≤ index + items.length then items[(index + items.length).toNat]?
  else none

end Stencil.Query
