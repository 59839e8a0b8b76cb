import Stencil.Diagnostic
import Stencil.Marker.Scan
import Stencil.Path.Language
import Stencil.Template.Basic
import Stencil.Value.Text

/-!
Compiling a template from a value. Every string is scanned. An object whose only key is a section
marker becomes a section over its value; no other marker may stand in a key, and neither sections
nor switches in a value. The first fault ends the compilation: values come before their keys, and
items and members in their order.
-/
namespace Stencil

open Marker (Reading scan)

inductive CompileFault where
  | malformed (fault : Marker.Fault)
  | keyNotString (key : Scalar)
  | sectionNotAlone (key : Scalar)
  | misplacedInKey (marker key : String)
  | misplacedInValue (marker value : String)
deriving DecidableEq

/-- The message of a fault; a key that is a whole number beyond the limit of digits cannot be shown,
and the message is then about that. -/
def CompileFault.message : CompileFault → String
  | .malformed fault => Diagnostic.caretText fault.cause.message fault.source fault.index
  | .keyNotString key =>
    if key.isLong then digitLimitMessage none else "expected a string key, found " ++ key.quoted
  | .sectionNotAlone key => "section " ++ key.quoted ++ " must be the only key in its object"
  | .misplacedInKey marker key =>
    "unexpected " ++ marker ++ " marker in key " ++ (Scalar.string key).quoted
  | .misplacedInValue marker value =>
    "unexpected " ++ marker ++ " marker in value " ++ (Scalar.string value).quoted

namespace Template

variable {π : Type} (language : PathLanguage π)

inductive Key (π : Type) where
  | name (text : String)
  | sectionOf (path : π)

def keyOf : Scalar → Except CompileFault (Key π)
  | .string s =>
    match scan language.compile s with
    | .error fault => .error (.malformed fault)
    | .ok (.literal text) => .ok (.name text)
    | .ok (.whole .sectionOf path) => .ok (.sectionOf path)
    | .ok reading => .error (.misplacedInKey reading.name s)
  | key => .error (.keyNotString key)

def ofString (s : String) : Except CompileFault (Template π) :=
  match scan language.compile s with
  | .error fault => .error (.malformed fault)
  | .ok (.literal text) => .ok (.literal (.string text))
  | .ok (.interpolation tokens) => .ok (.interpolation tokens)
  | .ok (.whole .raw path) => .ok (.raw path)
  | .ok (.whole .unquote path) => .ok (.unquote path)
  | .ok reading => .error (.misplacedInValue reading.name s)

mutual

def ofValue : Value → Except CompileFault (Template π)
  | .scalar (.string s) => ofString language s
  | .scalar s => .ok (.literal s)
  | .array items => return .array (← ofItems items)
  | .object [(key, value)] => do
    let body ← ofValue value
    match ← keyOf language key with
    | .name text => return .object [(text, body)]
    | .sectionOf path => return .sectionOf path body
  | .object members => return .object (← ofMembers members)

def ofItems : List Value → Except CompileFault (List (Template π))
  | [] => .ok []
  | item :: items => return (← ofValue item) :: (← ofItems items)

/-- The members of an object that holds more than one, where no key may be a section marker. -/
def ofMembers : List (Scalar × Value) → Except CompileFault (List (String × Template π))
  | [] => .ok []
  | (key, value) :: members => do
    let node ← ofValue value
    match ← keyOf language key with
    | .name text => return (text, node) :: (← ofMembers members)
    | .sectionOf _ => .error (.sectionNotAlone key)

end

end Template
end Stencil
