import Stencil.Number.Layout
import Stencil.Query.Basic
import Stencil.Text.StringLiteral

/-!
The canonical text of a query: every segment in brackets, names in single quotes, every slice
with its step. A disjunction or conjunction is in parentheses where it is negated or stands in
one that binds as tightly, and everywhere within a comparison.
-/
namespace Stencil.Query

def nameText (s : String) : List Char :=
  Text.literal '\'' (fun c => 0x20 ≤ c.toNat) s.toList

def literalText : Scalar → List Char
  | .null => ['n', 'i', 'l']
  | .bool true => ['t', 'r', 'u', 'e']
  | .bool false => ['f', 'a', 'l', 's', 'e']
  | .int n => integerText n
  | .float x => x.text
  | .string s => nameText s

def boundText : Option Int → List Char
  | some n => integerText n
  | none => []

def Origin.sign : Origin → Char
  | .item => '@'
  | .current => '$'
  | .root => '_'

def Comparison.sign : Comparison → List Char
  | .eq => ['=', '=']
  | .ne => ['!', '=']
  | .lt => ['<']
  | .le => ['<', '=']
  | .gt => ['>']
  | .ge => ['>', '=']

inductive Level where
  | disjunct
  | conjunct
  | negated
  | compared
deriving DecidableEq

def Level.within (outer : Option Level) (level : Level) : Option Level :=
  if outer = some .compared then outer else some level

def grouped (needed : Bool) (text : List Char) : List Char :=
  if needed then '(' :: (text ++ [')']) else text

mutual

def segmentsText : List Segment → List Char
  | [] => []
  | segment :: segments => segmentText segment ++ segmentsText segments

def segmentText : Segment → List Char
  | .child selectors => '[' :: (selectorsText selectors ++ [']'])
  | .descendants selectors => '.' :: '.' :: '[' :: (selectorsText selectors ++ [']'])

def selectorsText : List Selector → List Char
  | [] => []
  | [selector] => selectorText selector
  | selector :: next :: selectors =>
    selectorText selector ++ ',' :: ' ' :: selectorsText (next :: selectors)

def selectorText : Selector → List Char
  | .name s => nameText s
  | .index i => integerText i
  | .slice start stop step =>
    boundText start ++ ':' :: boundText stop ++ ':' :: boundText (some (step.getD 1))
  | .wildcard => ['*']
  | .filter condition => '?' :: expressionText none condition

/-- `outer` is what the expression stands in; nothing stands for a whole filter. -/
def expressionText (outer : Option Level) : Expression → List Char
  | .query origin segments => origin.sign :: segmentsText segments
  | .literal value => literalText value
  | .compare comparison left right =>
    expressionText (some .compared) left ++ ' ' :: comparison.sign ++
      ' ' :: expressionText (some .compared) right
  | .not operand => '!' :: expressionText (Level.within outer .negated) operand
  | .and left right =>
    grouped (outer.any (· ≠ .disjunct))
      (expressionText (Level.within outer .conjunct) left ++ ' ' :: '&' :: '&' :: ' ' ::
        expressionText (Level.within outer .conjunct) right)
  | .or left right =>
    grouped outer.isSome
      (expressionText (Level.within outer .disjunct) left ++ ' ' :: '|' :: '|' :: ' ' ::
        expressionText (Level.within outer .disjunct) right)

end

end Stencil.Query

namespace Stencil

def Query.text : Query → List Char
  | .path segments => '$' :: Query.segmentsText segments
  | .union left right => left.text ++ ' ' :: '|' :: ' ' :: '$' :: Query.segmentsText right
  | .intersection left right => left.text ++ ' ' :: '&' :: ' ' :: '$' :: Query.segmentsText right

end Stencil
