import Stencil.Template.Render

/-!
What is logged of a compilation and of a rendering. A rendering that ends because a whole number
has too many digits, be it read or written, leaves no record.
-/
namespace Stencil

inductive LogRecord where
  | compiled (kind : String)
  | renderFailed (message : String)
deriving DecidableEq

def LogRecord.text : LogRecord → String
  | .compiled kind => "Compiled template -> " ++ kind
  | .renderFailed message => "Render failed: " ++ message

namespace Log

variable {π : Type}

def ofCompiled (template : Template π) : List LogRecord := [.compiled template.kindName]

def ofRendered (language : PathLanguage π) : Except (RenderFault π) Value → List LogRecord
  | .error (.unquote _ (.tooManyDigits _)) => []
  | .error (.tooLong _) => []
  | .error e => [.renderFailed (e.message language.describe)]
  | .ok _ => []

end Log
end Stencil
