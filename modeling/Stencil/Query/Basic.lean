import Stencil.Value.Basic

/-!
Queries: paths of segments that select values in a document, and unions and intersections of
them. A filter keeps the items for which an expression holds, and an expression may hold queries
again, which start at the item, at the document that is queried, or at the root document.
-/
namespace Stencil.Query

inductive Origin where
  | item
  | current
  | root
deriving DecidableEq

inductive Comparison where
  | eq
  | ne
  | lt
  | le
  | gt
  | ge
deriving DecidableEq

mutual

/-- A segment applies its selectors to each value, or to each value and all below it. -/
inductive Segment where
  | child (selectors : List Selector)
  | descendants (selectors : List Selector)

inductive Selector where
  | name (s : String)
  | index (i : Int)
  | slice (start stop step : Option Int)
  | wildcard
  | filter (condition : Expression)

/-- What a filter asks of an item. Every expression may be negated, joined or compared, so far as
`isLiteral` and `isComparable` allow. -/
inductive Expression where
  | query (origin : Origin) (segments : List Segment)
  | literal (value : Scalar)
  | compare (comparison : Comparison) (left right : Expression)
  | not (operand : Expression)
  | and (left right : Expression)
  | or (left right : Expression)

end

def Segment.isSingular : Segment → Bool
  | .child [.name _] => true
  | .child [.index _] => true
  | _ => false

def Expression.isLiteral : Expression → Bool
  | .literal _ => true
  | _ => false

/-- A query can be compared if it finds at most one value. -/
def Expression.isComparable : Expression → Bool
  | .query _ segments => segments.all Segment.isSingular
  | _ => true

end Stencil.Query

namespace Stencil

/-- A query of one path, or one that joins a query with the path behind it. -/
inductive Query where
  | path (segments : List Query.Segment)
  | union (left : Query) (right : List Query.Segment)
  | intersection (left : Query) (right : List Query.Segment)

end Stencil
