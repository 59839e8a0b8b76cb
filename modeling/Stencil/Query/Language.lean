import Stencil.Json.Decode
import Stencil.Json.Encode
import Stencil.Path.Language
import Stencil.Query.Evaluate
import Stencil.Query.Reader
import Stencil.Query.Text
import Stencil.Text.Blank

/-!
The path language of queries. A document of a query may be given as JSON text, so a string that is
a document is handed over as the text of that string. Queries do not say what is wrong with them.
-/
namespace Stencil.Query

/-- The values that a query selects in a document. An intersection keeps what the left side finds
if the right side finds an equal value. -/
def evaluate (root document : Value) : Query → Except Fault (List Value)
  | .path segments => select root document [document] segments
  | .union left right => do
    let found ← evaluate root document left
    return found ++ (← select root document [document] right)
  | .intersection left right => do
    let found ← evaluate root document left
    let others ← select root document [document] right
    return found.filter fun v => others.any fun other => v.same other

/-- The document that is given: a string is its JSON text. -/
def ofGiven? : Value → Option Value
  | .scalar (.string text) => Json.decode text
  | v => some v

/-- The form in which a value is given as a document, so that strings stay what they are. -/
def toGiven : Value → Value
  | .scalar (.string s) => .string (Json.encode (.string s))
  | v => v

def evaluateGiven? (root document : Value) (query : Query) : Option (List Value) := do
  (evaluate (← ofGiven? root) (← ofGiven? document) query).toOption

def faultText : String := "<engine>"

def language : PathLanguage Query where
  compile text :=
    match read? (Text.trim text.toList) with
    | some query => .ok query
    | none => .error faultText
  evaluate root current query :=
    match evaluateGiven? (toGiven root) (toGiven current) query with
    | some found => .ok found
    | none => .error faultText
  describe query := String.ofList query.text

end Stencil.Query
