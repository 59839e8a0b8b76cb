import Stencil.Number.Layout
import Stencil.Text.Line
import Stencil.Text.Quoted

/-!
Messages that point at a place of a text: the message, the place, and the line with a caret
under the column. Without a place the message stands alone.
-/
namespace Stencil.Diagnostic

def spaces (count : Nat) : String := String.ofList (List.replicate count ' ')

/-- A negative column points at the start of the line. -/
def caretLines (message : String) (place : Text.Place) : List String :=
  let number := String.ofList (integerText place.line)
  let margin := spaces number.length
  let column := String.ofList (integerText place.column)
  [ message,
    margin ++ " -> " ++ String.ofList (Text.quoted place.current) ++ ":" ++ number ++ ":" ++ column,
    margin ++ " |",
    number ++ " | " ++ String.ofList place.current,
    margin ++ " | " ++ spaces place.column.toNat ++ "^ " ++ message ]

def caretText (message source : String) (index : Int) : String :=
  match Text.place? source.toList index with
  | none => message
  | some place => "\n".intercalate (caretLines message place)

end Stencil.Diagnostic
