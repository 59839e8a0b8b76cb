import Stencil.Text.Blank
import Stencil.Text.Quoted

/-!
What a template string can be. It is literal text, or text with paths in it, or one marker that
spans the whole string. `π` is the type of compiled paths.
-/
namespace Stencil.Marker

/-- The markers that span a whole string. -/
inductive Kind where
  | raw
  | unquote
  | sectionOf
  | switch
deriving DecidableEq

inductive Token (π : Type) where
  | text (s : String)
  | path (p : π)
deriving DecidableEq

inductive Reading (π : Type) where
  | literal (text : String)
  | interpolation (tokens : List (Token π))
  | whole (kind : Kind) (path : π)
deriving DecidableEq

inductive Cause where
  | unterminated
  | trailing (next : Char)
  | invalidPath (text : String) (reason : String)
deriving DecidableEq

/-- A cause with the string that was read and the index at which it shows. -/
structure Fault where
  cause : Cause
  source : String
  index : Nat
deriving DecidableEq

def Kind.name : Kind → String
  | .raw => "triple_braces"
  | .unquote => "unquote"
  | .sectionOf => "section"
  | .switch => "switch"

def Reading.name {π : Type} : Reading π → String
  | .literal _ => "literal"
  | .interpolation _ => "interpolate"
  | .whole kind _ => kind.name

def Cause.message : Cause → String
  | .unterminated => "unterminated marker"
  | .trailing next => "unexpected " ++ String.ofList (Text.quoted [next]) ++ " after marker"
  | .invalidPath text reason =>
    "invalid path " ++ String.ofList (Text.quoted (Text.trim text.toList)) ++ ": " ++ reason

end Stencil.Marker
