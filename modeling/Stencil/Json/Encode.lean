import Stencil.Number.Layout
import Stencil.Text.StringLiteral
import Stencil.Value.Basic

/-!
JSON text of values, on one line and in ASCII: a comma and a colon are followed by one space,
members stand in their order, and a key that is no string is written as the string of its text.
Whether its whole numbers may be written at all is decided where the text is asked for.
-/
namespace Stencil.Json

def isPlain (c : Char) : Bool := 0x20 ≤ c.toNat && c.toNat ≤ 0x7E

def stringText (s : String) : List Char := Text.literal '"' isPlain s.toList

def scalarText : Scalar → List Char
  | .null => ['n', 'u', 'l', 'l']
  | .bool true => ['t', 'r', 'u', 'e']
  | .bool false => ['f', 'a', 'l', 's', 'e']
  | .int n => integerText n
  | .float x => x.jsonText
  | .string s => stringText s

def keyText : Scalar → List Char
  | .string s => stringText s
  | key => '"' :: (scalarText key ++ ['"'])

def separated : List (List Char) → List Char
  | [] => []
  | [text] => text
  | text :: next :: rest => text ++ ',' :: ' ' :: separated (next :: rest)

mutual

def valueText : Value → List Char
  | .scalar s => scalarText s
  | .array items => '[' :: (separated (itemTexts items) ++ [']'])
  | .object members => '\x7b' :: (separated (memberTexts members) ++ ['\x7d'])

def itemTexts : List Value → List (List Char)
  | [] => []
  | item :: items => valueText item :: itemTexts items

def memberTexts : List (Scalar × Value) → List (List Char)
  | [] => []
  | (key, value) :: members => (keyText key ++ ':' :: ' ' :: valueText value) :: memberTexts members

end

theorem item_texts_map (items : List Value) : itemTexts items = items.map valueText := by
  induction items with
  | nil => rfl
  | cons item items ih => rw [itemTexts, ih, List.map_cons]

theorem member_texts_map (members : List (Scalar × Value)) :
    memberTexts members =
      members.map fun member => keyText member.1 ++ ':' :: ' ' :: valueText member.2 := by
  induction members with
  | nil => rfl
  | cons member members ih => rw [memberTexts, ih, List.map_cons]

def encode (v : Value) : String := String.ofList (valueText v)

end Stencil.Json
