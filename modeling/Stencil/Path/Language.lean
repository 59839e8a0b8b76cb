import Stencil.Value.Basic

/-!
The interface to a path language. A template does not look into its paths: it has them compiled
from their text, evaluates them against a root and a current document, and names them in messages.
-/
namespace Stencil

/-- A language with compiled paths of type `π`. It says in words of its own why a text is no path
and why an evaluation failed. -/
structure PathLanguage (π : Type) where
  compile : String → Except String π
  evaluate : (root current : Value) → π → Except String (List Value)
  describe : π → String

end Stencil
