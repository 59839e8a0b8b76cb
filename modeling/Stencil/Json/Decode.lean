import Stencil.Json.Token
import Stencil.Number.Numeral
import Stencil.Value.Basic

/-!
Values from JSON text. The tokens are read from left to right with a stack of the arrays and
objects that are still open, so the reading ends with the tokens. A numeral without fraction
and exponent is a whole number; the names of infinity and of no number are accepted. Of members with
the same key the first gives the place and the last the value.
-/
namespace Stencil.Json

/-- An open array with its items so far, or an open object with its members so far and the key
of the member at hand; the last one first. -/
inductive Frame where
  | items (done : List Value)
  | members (done : List (Scalar × Value)) (key : String)

inductive Expecting where
  | value (stack : List Frame)
  | itemOrEnd (stack : List Frame)
  | keyOrEnd (stack : List Frame)
  | key (done : List (Scalar × Value)) (stack : List Frame)
  | colon (done : List (Scalar × Value)) (key : String) (stack : List Frame)
  | more (last : Value) (stack : List Frame)

/-- JSON allows no superfluous zero in front. -/
def numberOf? (text : List Char) : Option Scalar := do
  let n ← Numeral.read? text
  if n.whole.length > 1 && n.whole.head? == some '0' then none
  else if n.isWhole then some (.int n.toInt)
  else some (.float n.toDecimal.toBinary64)

def wordScalar? (text : List Char) : Option Scalar :=
  match String.ofList text with
  | "null" => some .null
  | "true" => some (.bool true)
  | "false" => some (.bool false)
  | "NaN" => some (.float .nan)
  | "Infinity" => some (.float (.infinite false))
  | "-Infinity" => some (.float (.infinite true))
  | _ => numberOf? text

def startValue (stack : List Frame) : Token → Option Expecting
  | .openArray => some (.itemOrEnd stack)
  | .openObject => some (.keyOrEnd stack)
  | .string s => some (.more (.string (String.ofList s)) stack)
  | .word text => (wordScalar? text).map fun s => .more (.scalar s) stack
  | _ => none

def Expecting.step : Expecting → Token → Option Expecting
  | .value stack, token => startValue stack token
  | .itemOrEnd stack, .closeArray => some (.more (.array []) stack)
  | .itemOrEnd stack, token => startValue (.items [] :: stack) token
  | .keyOrEnd stack, .closeObject => some (.more (.object []) stack)
  | .keyOrEnd stack, .string s => some (.colon [] (String.ofList s) stack)
  | .key done stack, .string s => some (.colon done (String.ofList s) stack)
  | .colon done name stack, .colon => some (.value (.members done name :: stack))
  | .more last (.items done :: stack), .comma => some (.value (.items (last :: done) :: stack))
  | .more last (.items done :: stack), .closeArray =>
    some (.more (.array (last :: done).reverse) stack)
  | .more last (.members done name :: stack), .comma =>
    some (.key ((.string name, last) :: done) stack)
  | .more last (.members done name :: stack), .closeObject =>
    some (.more (.object (mergeMembers (· == ·) ((.string name, last) :: done).reverse)) stack)
  | _, _ => none

def ofTokens (tokens : List Token) : Option Value :=
  match tokens.foldlM Expecting.step (.value []) with
  | some (.more v []) => some v
  | _ => none

def decodeChars (text : List Char) : Option Value := (Token.ofText text).bind ofTokens

def decode (text : String) : Option Value := decodeChars text.toList

end Stencil.Json
