import Stencil.Path.Language
import Stencil.Text.Blank
import Stencil.Text.Quoted

/-!
Dotted paths: segments apart by points, which walk down from the current document, or from the
root if the first segment is `^`. A segment `*` goes to all items of an array, any other one to
the member of that key. A segment `!` fails when it is reached.
-/
namespace Stencil.Path.Dotted

def splitPoints : List Char → List (List Char)
  | [] => [[]]
  | c :: rest =>
    if c = '.' then [] :: splitPoints rest
    else match splitPoints rest with
      | [] => [[c]]
      | segment :: segments => (c :: segment) :: segments

def isSegment (segment : List Char) : Bool := !segment.isEmpty && !segment.contains ' '

def dropCurrent : List String → List String
  | "$" :: segments => segments
  | segments => segments

def compile (text : String) : Except String (List String) :=
  let trimmed := Text.trim text.toList
  let segments := splitPoints trimmed
  if segments.all isSegment then .ok (dropCurrent (segments.map String.ofList))
  else .error ("bad path " ++ String.ofList (Text.quoted trimmed))

def children (segment : String) : Value → List Value
  | .array items => if segment = "*" then items else []
  | node => (node.member? segment).toList

def walk : List String → List Value → Except String (List Value)
  | [], nodes => .ok nodes
  | segment :: segments, nodes =>
    if segment = "!" then .error "boom" else walk segments (nodes.flatMap (children segment))

def evaluate (root current : Value) : List String → Except String (List Value)
  | "^" :: segments => walk segments [root]
  | segments => walk segments [current]

/-- The quoted segments between parentheses; a comma stands behind a single one. -/
def describe (segments : List String) : String :=
  let texts := segments.map fun segment => String.ofList (Text.quoted segment.toList)
  match texts with
  | [text] => "(" ++ text ++ ",)"
  | _ => "(" ++ ", ".intercalate texts ++ ")"

def language : PathLanguage (List String) := ⟨compile, evaluate, describe⟩

end Stencil.Path.Dotted
