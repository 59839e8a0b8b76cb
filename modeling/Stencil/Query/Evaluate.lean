import Stencil.Number.Layout
import Stencil.Query.Basic
import Stencil.Query.Slice
import Stencil.Value.Same

/-!
Evaluating a query to the values that it selects, in document order. An expression comes to
values that a query found or to a scalar. It is evaluated whole, so a fault in one part of it is
a fault of the expression.
-/
namespace Stencil.Query

/-- The only fault: values nested more deeply than a descent may go. -/
inductive Fault where
  | tooDeep
deriving DecidableEq

/-- The deepest level of a descent, which starts at level one. -/
def depthLimit : Nat := 100

def isNested : Value → Bool
  | .array _ => true
  | .object _ => true
  | .scalar (.string _) => true
  | .scalar _ => false

mutual

/-- A value at the given level and what is nested in it, each value before its items. -/
def nested (level : Nat) : Value → Except Fault (List Value)
  | .scalar s => if depthLimit < level then .error .tooDeep else .ok [.scalar s]
  | .array items =>
    if depthLimit < level then .error .tooDeep
    else return .array items :: (← nestedItems (level + 1) items)
  | .object members =>
    if depthLimit < level then .error .tooDeep
    else return .object members :: (← nestedMembers (level + 1) members)

def nestedItems (level : Nat) : List Value → Except Fault (List Value)
  | [] => .ok []
  | item :: items => do
    let below ← if isNested item then nested level item else .ok []
    return below ++ (← nestedItems level items)

def nestedMembers (level : Nat) : List (Scalar × Value) → Except Fault (List Value)
  | [] => .ok []
  | (_, value) :: members => do
    let below ← if isNested value then nested level value else .ok []
    return below ++ (← nestedMembers level members)

end

def itemsOf : Value → List Value
  | .array items => items
  | .object members => members.map (·.2)
  | .scalar _ => []

/-- The item of an array at an index, or the member of an object whose key is its numeral. -/
def atIndex (index : Int) : Value → Option Value
  | .array items => itemAt? items index
  | v => v.member? (String.ofList (integerText index))

def sliceOf (start stop step : Option Int) : Value → List Value
  | .array items => slice items start stop step
  | .scalar (.string s) =>
    (slice s.toList start stop step).map fun c => .string (String.ofList [c])
  | _ => []

/-- The values for which a test that may fail holds; every value is tested. -/
def keepM {ε α : Type} (test : α → Except ε Bool) : List α → Except ε (List α)
  | [] => .ok []
  | v :: values => do
    let keep ← test v
    let kept ← keepM test values
    return if keep then v :: kept else kept

inductive Outcome where
  | found (values : List Value)
  | scalar (s : Scalar)

/-- A scalar on its own as a condition: empty text, zero and falsehood do not hold. -/
def Scalar.holds : Scalar → Bool
  | .null => true
  | .bool b => b
  | .string s => !s.isEmpty
  | s => !(s.same (.int 0))

def Outcome.holds : Outcome → Bool
  | .found values => !values.isEmpty
  | .scalar s => Scalar.holds s

def Outcome.operand? : Outcome → Option Value
  | .found [v] => some v
  | .found _ => none
  | .scalar s => some (.scalar s)

/-- Equality of two operands, where nothing equals nothing only and a boolean equals
booleans only. -/
def sameFound : Option Value → Option Value → Bool
  | none, none => true
  | some (.scalar (.bool a)), some (.scalar (.bool b)) => a == b
  | some (.scalar (.bool _)), some _ => false
  | some _, some (.scalar (.bool _)) => false
  | some a, some b => a.same b
  | _, _ => false

/-- Strings are ordered by their characters, and numbers with booleans by their quantity. -/
def lessFound : Option Value → Option Value → Bool
  | some (.scalar (.string a)), some (.scalar (.string b)) => a < b
  | some (.scalar a), some (.scalar b) =>
    match a.quantity?, b.quantity? with
    | some p, some q => p.less q
    | _, _ => false
  | _, _ => false

def Comparison.holds (left right : Option Value) : Comparison → Bool
  | .eq => sameFound left right
  | .ne => !sameFound left right
  | .lt => lessFound left right
  | .le => lessFound left right || sameFound left right
  | .gt => lessFound right left
  | .ge => lessFound right left || sameFound left right

/-- Where a query in an expression starts: its document, and the values its segments apply to. A
query at the item has the item for a document. A scalar item offers nothing to segments, not even
the characters of a string. -/
def startOf (root document item : Value) : Origin → Value × List Value
  | .item =>
    match item with
    | .scalar _ => (item, [])
    | _ => (item, [item])
  | .current => (document, [document])
  | .root => (root, [root])

mutual

def select (root document : Value) (values : List Value) :
    List Segment → Except Fault (List Value)
  | [] => .ok values
  | segment :: segments => do
    let found ← values.mapM fun v => selectBy root document v segment
    select root document found.flatten segments

def selectBy (root document v : Value) : Segment → Except Fault (List Value)
  | .child selectors => selectEach root document v selectors
  | .descendants selectors => do
    let found ← (← nested 1 v).mapM fun w => selectEach root document w selectors
    return found.flatten

def selectEach (root document v : Value) : List Selector → Except Fault (List Value)
  | [] => .ok []
  | selector :: selectors => do
    let found ← selectOne root document v selector
    return found ++ (← selectEach root document v selectors)

def selectOne (root document v : Value) : Selector → Except Fault (List Value)
  | .name s => .ok (v.member? s).toList
  | .index i => .ok (atIndex i v).toList
  | .slice start stop step => .ok (sliceOf start stop step v)
  | .wildcard => .ok (itemsOf v)
  | .filter condition =>
    keepM (fun item => return (← outcome root document item condition).holds) (itemsOf v)

def outcome (root document item : Value) : Expression → Except Fault Outcome
  | .query .item [] =>
    match item with
    | .scalar s => .ok (.scalar s)
    | _ => .ok (.found [item])
  | .query origin segments => do
    let start := startOf root document item origin
    return .found (← select root start.1 start.2 segments)
  | .literal s => .ok (.scalar s)
  | .compare comparison left right => do
    let left ← outcome root document item left
    let right ← outcome root document item right
    return .scalar (.bool (comparison.holds left.operand? right.operand?))
  | .not operand => return .scalar (.bool !(← outcome root document item operand).holds)
  | .and left right => do
    let left ← outcome root document item left
    let right ← outcome root document item right
    return .scalar (.bool (left.holds && right.holds))
  | .or left right => do
    let left ← outcome root document item left
    let right ← outcome root document item right
    return .scalar (.bool (left.holds || right.holds))

end

end Stencil.Query
