import Stencil.Number.Layout
import Stencil.Number.Numeral
import Stencil.Text.Quoted
import Stencil.Value.Basic

/-!
Reading a scalar out of its text: the constants of JSON by name, whole numbers, and numbers with
a fraction or an exponent, which must be finite. Nothing else is a scalar, not even a quoted
string. Zeros in front are allowed, and a whole number has at most 4300 digits.
-/
namespace Stencil

inductive UnquoteFault where
  | notScalar (text : String)
  | tooManyDigits (count : Nat)
deriving DecidableEq

def constant? : String → Option Scalar
  | "true" => some (.bool true)
  | "false" => some (.bool false)
  | "null" => some .null
  | _ => none

def unquoteNumeral (text : String) (n : Numeral) : Except UnquoteFault Scalar :=
  if n.isWhole then
    if digitLimit < n.whole.length then .error (.tooManyDigits n.whole.length)
    else .ok (.int n.toInt)
  else
    let x := n.toDecimal.toBinary64
    if x.isFinite then .ok (.float x) else .error (.notScalar text)

def unquote (text : String) : Except UnquoteFault Scalar :=
  match constant? text with
  | some s => .ok s
  | none =>
    match Numeral.read? text.toList with
    | some n => unquoteNumeral text n
    | none => .error (.notScalar text)

def UnquoteFault.message : UnquoteFault → String
  | .notScalar text => "can't unquote " ++ String.ofList (Text.quoted text.toList)
  | .tooManyDigits count => digitLimitMessage (some count)

end Stencil
