import Stencil.Path.Language

/-!
The language whose paths are their own text. It refuses a text with an exclamation mark, and its
paths match nothing: it serves to look at templates, not to render them.
-/
namespace Stencil.Path.Verbatim

def compile (text : String) : Except String String :=
  if text.toList.contains '!' then .error "nope" else .ok text

def language : PathLanguage String where
  compile := compile
  evaluate _ _ _ := .ok []
  describe := id

end Stencil.Path.Verbatim
