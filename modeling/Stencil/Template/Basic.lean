import Stencil.Marker.Basic
import Stencil.Value.Basic

/-!
Compiled templates. A template has the shape of the value it renders to, with paths of type `π`
where a document is to fill in.
-/
namespace Stencil

open Marker (Token)

inductive Template (π : Type) where
  | literal (value : Scalar)
  | interpolation (tokens : List (Token π))
  | raw (path : π)
  | unquote (path : π)
  | sectionOf (path : π) (body : Template π)
  | object (members : List (String × Template π))
  | array (items : List (Template π))

def Template.kindName {π : Type} : Template π → String
  | .literal _ => "Literal"
  | .interpolation _ => "Interpolation"
  | .raw _ => "RawSubstitution"
  | .unquote _ => "Unquote"
  | .sectionOf .. => "Section"
  | .object _ => "Object"
  | .array _ => "Array"

end Stencil
