import Stencil.Template.Basic

/-!
The paths of a template, in the order in which they are compiled: from left to right, and those
of a section's body before its own. A template that holds its paths as text becomes one with
compiled paths, if none of them is refused. The nodes of a template are it and all templates in it.
-/
namespace Stencil

variable {π : Type}

def Marker.Token.path? : Marker.Token π → Option π
  | .text _ => none
  | .path p => some p

namespace Template

mutual

def paths : Template π → List π
  | .literal _ => []
  | .interpolation tokens => tokens.filterMap Marker.Token.path?
  | .raw path => [path]
  | .unquote path => [path]
  | .sectionOf path body => paths body ++ [path]
  | .object members => memberPaths members
  | .array items => itemPaths items

def memberPaths : List (String × Template π) → List π
  | [] => []
  | (_, node) :: members => paths node ++ memberPaths members

def itemPaths : List (Template π) → List π
  | [] => []
  | item :: items => paths item ++ itemPaths items

end

mutual

def nodes : Template π → List (Template π)
  | .literal s => [.literal s]
  | .interpolation tokens => [.interpolation tokens]
  | .raw path => [.raw path]
  | .unquote path => [.unquote path]
  | .sectionOf path body => .sectionOf path body :: nodes body
  | .object members => .object members :: memberNodes members
  | .array items => .array items :: itemNodes items

def memberNodes : List (String × Template π) → List (Template π)
  | [] => []
  | (_, node) :: members => nodes node ++ memberNodes members

def itemNodes : List (Template π) → List (Template π)
  | [] => []
  | item :: items => nodes item ++ itemNodes items

end

end Template

def Marker.Token.compilePath (compile : String → Except String π) :
    Marker.Token String → Except String (Marker.Token π)
  | .text s => .ok (.text s)
  | .path source => return .path (← compile source)

namespace Template

mutual

def compilePaths (compile : String → Except String π) :
    Template String → Except String (Template π)
  | .literal s => .ok (.literal s)
  | .interpolation tokens => return .interpolation (← tokens.mapM (·.compilePath compile))
  | .raw text => return .raw (← compile text)
  | .unquote text => return .unquote (← compile text)
  | .sectionOf text body => do
    let compiled ← compilePaths compile body
    return .sectionOf (← compile text) compiled
  | .object members => return .object (← compileMemberPaths compile members)
  | .array items => return .array (← compileItemPaths compile items)

def compileMemberPaths (compile : String → Except String π) :
    List (String × Template String) → Except String (List (String × Template π))
  | [] => .ok []
  | (name, node) :: members => do
    let compiled ← compilePaths compile node
    return (name, compiled) :: (← compileMemberPaths compile members)

def compileItemPaths (compile : String → Except String π) :
    List (Template String) → Except String (List (Template π))
  | [] => .ok []
  | item :: items => do
    let compiled ← compilePaths compile item
    return compiled :: (← compileItemPaths compile items)

end

end Template
end Stencil
