import Stencil.Path.Language
import Stencil.Template.Basic
import Stencil.Unquote
import Stencil.Value.Text

/-!
Rendering a template against documents. Every path is evaluated against the root document, which
stays the same, and the current one, which a section rebinds to each item it ranges over. The
first step that fails ends the rendering; steps are taken depth first, from left to right.
-/
namespace Stencil

open Marker (Token)

/-- A whole number with too many digits, read as `unquote` or written as `tooLong`, is reported by
the message of that limit alone, without the path. -/
inductive RenderFault (π : Type) where
  | evaluation (path : π) (reason : String)
  | notSingle (path : π) (count : Nat)
  | sectionWithoutMatch (path : π)
  | sectionShape (path : π) (shape : Shape)
  | unquote (path : π) (cause : UnquoteFault)
  | tooLong (path : π)
deriving DecidableEq

namespace RenderFault

variable {π : Type}

def path : RenderFault π → π
  | evaluation path _ => path
  | notSingle path _ => path
  | sectionWithoutMatch path => path
  | sectionShape path _ => path
  | unquote path _ => path
  | tooLong path => path

def message (describe : π → String) : RenderFault π → String
  | evaluation path reason => "can't evaluate " ++ describe path ++ ": " ++ reason
  | notSingle path count =>
    "expected exactly one match for " ++ describe path ++ ", found "
      ++ String.ofList (integerText count)
  | sectionWithoutMatch path => "section " ++ describe path ++ " matched nothing"
  | sectionShape path shape =>
    "section " ++ describe path ++ " matched a " ++ shape.name
      ++ ", expected an array or a boolean"
  | unquote _ cause => cause.message
  | tooLong _ => digitLimitMessage none

end RenderFault

namespace Template

variable {π : Type} (language : PathLanguage π) (root : Value)

def findAll (current : Value) (path : π) : Except (RenderFault π) (List Value) :=
  match language.evaluate root current path with
  | .ok found => .ok found
  | .error reason => .error (.evaluation path reason)

def findOne (current : Value) (path : π) : Except (RenderFault π) Value := do
  match ← findAll language root current path with
  | [v] => return v
  | found => .error (.notSingle path found.length)

theorem find_one_of_single {current v : Value} {path : π}
    (found : language.evaluate root current path = .ok [v]) :
    findOne language root current path = .ok v := by
  unfold findOne findAll
  rw [found]
  rfl

def writeValue (path : π) (v : Value) : Except (RenderFault π) String :=
  match v.plainText with
  | some text => .ok text
  | none => .error (.tooLong path)

def renderToken (current : Value) : Token π → Except (RenderFault π) String
  | .text s => .ok s
  | .path path => do writeValue path (← findOne language root current path)

def unquoteValue (path : π) : Value → Except (RenderFault π) Value
  | .scalar (.string s) =>
    match Stencil.unquote s with
    | .ok scalar => .ok (.scalar scalar)
    | .error cause => .error (.unquote path cause)
  | v => .ok v

/-- The documents that a section renders its body against: the items of an array, the current
document or none for a boolean, and several matches as they are. -/
def sectionDocuments (path : π) (current : Value) : List Value → Except (RenderFault π) (List Value)
  | [] => .error (.sectionWithoutMatch path)
  | [.scalar (.bool true)] => .ok [current]
  | [.scalar (.bool false)] => .ok []
  | [.array items] => .ok items
  | [v] => .error (.sectionShape path v.shape)
  | found => .ok found

/-- An object with the given members; of equal names the first gives the place and the last the
value. -/
def objectOf (members : List (String × Value)) : Value :=
  .object ((mergeMembers (· == ·) members).map fun (name, v) => (.string name, v))

mutual

def render (current : Value) : Template π → Except (RenderFault π) Value
  | .literal s => .ok (.scalar s)
  | .interpolation tokens =>
    return .string (String.join (← tokens.mapM (renderToken language root current)))
  | .raw path => findOne language root current path
  | .unquote path => do unquoteValue path (← findOne language root current path)
  | .sectionOf path body => do
    let found ← findAll language root current path
    let documents ← sectionDocuments path current found
    return .array (← documents.mapM fun document => render document body)
  | .object members => return objectOf (← renderMembers current members)
  | .array items => return .array (← renderItems current items)

def renderMembers (current : Value) :
    List (String × Template π) → Except (RenderFault π) (List (String × Value))
  | [] => .ok []
  | (name, node) :: members =>
    return (name, ← render current node) :: (← renderMembers current members)

def renderItems (current : Value) : List (Template π) → Except (RenderFault π) (List Value)
  | [] => .ok []
  | item :: items => return (← render current item) :: (← renderItems current items)

end

end Template

def Template.renderDocument {π : Type} (language : PathLanguage π) (template : Template π)
    (document : Value) : Except (RenderFault π) Value :=
  template.render language document document

end Stencil
