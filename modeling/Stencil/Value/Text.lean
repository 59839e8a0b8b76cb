import Stencil.Json.Encode
import Stencil.Text.Quoted

/-!
How values appear in messages and between other text.
-/
namespace Stencil

inductive Shape where
  | null
  | bool
  | int
  | float
  | string
  | array
  | object
deriving DecidableEq

def Shape.name : Shape → String
  | .null => "NoneType"
  | .bool => "bool"
  | .int => "int"
  | .float => "float"
  | .string => "str"
  | .array => "list"
  | .object => "dict"

def Value.shape : Value → Shape
  | .scalar .null => .null
  | .scalar (.bool _) => .bool
  | .scalar (.int _) => .int
  | .scalar (.float _) => .float
  | .scalar (.string _) => .string
  | .array _ => .array
  | .object _ => .object

def Scalar.quoted : Scalar → String
  | .null => "None"
  | .bool true => "True"
  | .bool false => "False"
  | .int n => String.ofList (integerText n)
  | .float x => String.ofList x.text
  | .string s => String.ofList (Text.quoted s.toList)

/-- Whole numbers beyond the limit of digits have no text. -/
def Scalar.isLong : Scalar → Bool
  | .int n => digitLimit < digitCount n
  | _ => false

namespace Value

mutual

/-- There is a whole number without a text in the value, keys included. -/
def holdsLong : Value → Bool
  | .scalar s => s.isLong
  | .array items => itemsHoldLong items
  | .object members => membersHoldLong members

def itemsHoldLong : List Value → Bool
  | [] => false
  | item :: items => item.holdsLong || itemsHoldLong items

def membersHoldLong : List (Scalar × Value) → Bool
  | [] => false
  | (key, value) :: members => key.isLong || value.holdsLong || membersHoldLong members

end

/-- The text of a value between other text: strings as they are, null as nothing, numbers plainly,
arrays and objects as JSON text. There is none if a whole number in it is too long. -/
def plainText : Value → Option String
  | .scalar (.string s) => some s
  | .scalar .null => some ""
  | .scalar (.bool true) => some "true"
  | .scalar (.bool false) => some "false"
  | .scalar (.int n) =>
    if digitLimit < digitCount n then none else some (String.ofList (integerText n))
  | .scalar (.float x) => some (String.ofList x.text)
  | v => if v.holdsLong then none else some (Json.encode v)

end Value

end Stencil
