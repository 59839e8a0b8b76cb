import Stencil.Number.Numeral
import Stencil.Query.Basic
import Stencil.Text.StringLiteral

/-!
Reading a query from its text. White space may stand around selectors and operators and before
a segment, but not behind a point. In a filter negation binds tightest, then comparison,
conjunction and disjunction, and all of them group to the right. A literal is no condition, and a
query that may find several values cannot be compared.
-/
namespace Stencil.Query

-- Powers are those of the core library, whatever other instances are in scope.
attribute [local instance (high)] instPowNat

def isSpace (c : Char) : Bool := c == ' ' || c == '\n' || c == '\t' || c == '\r'

def skipSpace (text : List Char) : List Char := text.dropWhile isSpace

def isNameStart (c : Char) : Bool :=
  c.isAlpha || c == '_' || (0x80 ≤ c.toNat && c.toNat ≤ 0xFFFF)

def isNameChar (c : Char) : Bool := isNameStart c || c.isDigit || c == '-'

def takeName? : List Char → Option (String × List Char)
  | [] => none
  | c :: rest =>
    if isNameStart c then
      some (String.ofList (c :: rest.takeWhile isNameChar), rest.dropWhile isNameChar)
    else none

def takeShorthand? : List Char → Option (Selector × List Char)
  | '*' :: rest => some (.wildcard, rest)
  | text => (takeName? text).map fun (name, rest) => (.name name, rest)

def hasSuperfluousZero (digits : List Char) : Bool := digits.length > 1 && digits.head? == some '0'

/-- The greatest magnitude of an index and of a part of a slice. -/
def indexLimit : Nat := 2 ^ (53 : Nat) - 1

/-- A whole number, if one is written: with no zero in front, not minus zero, and in bounds. -/
def takeBound? (text : List Char) : Option (Option Int × List Char) :=
  let (negative, unsigned) := Numeral.takeMinus text
  let digits := unsigned.takeWhile Char.isDigit
  let magnitude := Numeral.digitsValue digits
  if digits.isEmpty then if negative then none else some (none, text)
  else if hasSuperfluousZero digits || (negative && magnitude == 0) || indexLimit < magnitude then
    none
  else some (some (Numeral.signed negative magnitude), unsigned.dropWhile Char.isDigit)

def startsOpenSlice : List Char → Bool
  | ',' :: ':' :: _ => true
  | _ => false

/-- An index, or a slice if a colon follows. A slice without a start may come next to an index only
if white space is between them. -/
def takeRange? (text : List Char) : Option (Selector × List Char) := do
  let (start, rest) ← takeBound? text
  match skipSpace rest with
  | ':' :: rest =>
    let (stop, rest) ← takeBound? (skipSpace rest)
    match skipSpace rest with
    | ':' :: rest =>
      let (step, rest) ← takeBound? (skipSpace rest)
      return (.slice start stop step, rest)
    | _ => return (.slice start stop none, rest)
  | _ => if startsOpenSlice rest then none else return (.index (← start), rest)

def isNumberChar (c : Char) : Bool :=
  c.isDigit || c == '+' || c == '-' || c == '.' || c == 'e' || c == 'E'

/-- A whole number goes through the nearest binary64 number, which must be finite. -/
def wholeOf? : Binary64 → Option Int
  | .finite x => some (x.units / (2 ^ (1074 : Nat) : Nat))
  | _ => none

/-- A number is whole if it has neither a fraction nor a negative exponent; zeros may stand in
front of it. In any other number without a sign, a zero in front must be the only digit before a
point. -/
def numberOf? (text : List Char) : Option Scalar := do
  let n ← Numeral.read? text
  let x := n.toDecimal.toBinary64
  if n.fraction.isEmpty && !(n.exponent.any (·.1)) then return .int (← wholeOf? x)
  else if !n.negative && n.whole.head? == some '0' &&
      (n.whole.length > 1 || n.fraction.isEmpty) then
    none
  else return .float x

def wordOf? : String → Option Scalar
  | "true" => some (.bool true)
  | "false" => some (.bool false)
  | "null" => some .null
  | _ => none

def takeString? : List Char → Option (String × List Char)
  | '\'' :: rest => (Text.takeLiteral '\'' rest).map (Prod.map String.ofList id)
  | '"' :: rest => (Text.takeLiteral '"' rest).map (Prod.map String.ofList id)
  | _ => none

def takeScalar? (text : List Char) : Option (Scalar × List Char) :=
  match takeString? text with
  | some (s, rest) => some (.string s, rest)
  | none =>
    match takeName? text with
    | some (word, rest) => (wordOf? word).map (·, rest)
    | none => (numberOf? (text.takeWhile isNumberChar)).map (·, text.dropWhile isNumberChar)

def takeOrigin? : List Char → Option (Origin × List Char)
  | '@' :: rest => some (.item, rest)
  | '$' :: rest => some (.current, rest)
  | '_' :: rest => some (.root, rest)
  | _ => none

def takeComparison? : List Char → Option (Comparison × List Char)
  | '=' :: '=' :: rest => some (.eq, rest)
  | '!' :: '=' :: rest => some (.ne, rest)
  | '<' :: '=' :: rest => some (.le, rest)
  | '>' :: '=' :: rest => some (.ge, rest)
  | '<' :: rest => some (.lt, rest)
  | '>' :: rest => some (.gt, rest)
  | _ => none

mutual

/-- Segments as far as they go. Each call below spends one unit of the first argument. -/
def takeSegments? : Nat → List Char → Option (List Segment × List Char)
  | 0, _ => none
  | fuel + 1, text =>
    match skipSpace text with
    | '.' :: '.' :: '[' :: rest => do
      let (selectors, rest) ← takeSelectors? fuel rest
      let (segments, rest) ← takeSegments? fuel rest
      return (.descendants selectors :: segments, rest)
    | '.' :: '.' :: rest => do
      let (selector, rest) ← takeShorthand? rest
      let (segments, rest) ← takeSegments? fuel rest
      return (.descendants [selector] :: segments, rest)
    | '.' :: rest => do
      let (selector, rest) ← takeShorthand? rest
      let (segments, rest) ← takeSegments? fuel rest
      return (.child [selector] :: segments, rest)
    | '[' :: rest => do
      let (selectors, rest) ← takeSelectors? fuel rest
      let (segments, rest) ← takeSegments? fuel rest
      return (.child selectors :: segments, rest)
    | _ => some ([], text)

def takeSelectors? : Nat → List Char → Option (List Selector × List Char)
  | 0, _ => none
  | fuel + 1, text => do
    let (selector, rest) ← takeSelector? fuel (skipSpace text)
    match skipSpace rest with
    | ',' :: rest =>
      let (selectors, rest) ← takeSelectors? fuel rest
      return (selector :: selectors, rest)
    | ']' :: rest => return ([selector], rest)
    | _ => none

def takeSelector? : Nat → List Char → Option (Selector × List Char)
  | 0, _ => none
  | fuel + 1, text =>
    match text with
    | '*' :: rest => some (.wildcard, rest)
    | '?' :: rest => do
      let (condition, rest) ← takeExpression? fuel rest
      if condition.isLiteral then none else return (.filter condition, rest)
    | _ =>
      match takeString? text with
      | some (s, rest) => some (.name s, rest)
      | none => takeRange? text

def takeExpression? : Nat → List Char → Option (Expression × List Char)
  | 0, _ => none
  | fuel + 1, text => do
    let (left, rest) ← takeConjunction? fuel text
    match skipSpace rest with
    | '|' :: '|' :: rest =>
      let (right, rest) ← takeExpression? fuel rest
      if left.isLiteral || right.isLiteral then none else return (.or left right, rest)
    | _ => return (left, rest)

def takeConjunction? : Nat → List Char → Option (Expression × List Char)
  | 0, _ => none
  | fuel + 1, text => do
    let (left, rest) ← takeComparand? fuel text
    match skipSpace rest with
    | '&' :: '&' :: rest =>
      let (right, rest) ← takeConjunction? fuel rest
      if left.isLiteral || right.isLiteral then none else return (.and left right, rest)
    | _ => return (left, rest)

def takeComparand? : Nat → List Char → Option (Expression × List Char)
  | 0, _ => none
  | fuel + 1, text => do
    let (left, rest) ← takeOperand? fuel (skipSpace text)
    match takeComparison? (skipSpace rest) with
    | some (comparison, rest) =>
      let (right, rest) ← takeComparand? fuel rest
      if left.isComparable && right.isComparable then
        return (.compare comparison left right, rest)
      else none
    | none => return (left, rest)

def takeOperand? : Nat → List Char → Option (Expression × List Char)
  | 0, _ => none
  | fuel + 1, text =>
    match text with
    | '(' :: rest => do
      let (expression, rest) ← takeExpression? fuel rest
      match skipSpace rest with
      | ')' :: rest => return (expression, rest)
      | _ => none
    | '!' :: rest => do
      let (operand, rest) ← takeOperand? fuel (skipSpace rest)
      if operand.isLiteral then none else return (.not operand, rest)
    | _ =>
      match takeOrigin? text with
      | some (origin, rest) =>
        (takeSegments? fuel rest).map fun (segments, rest) => (.query origin segments, rest)
      | none => (takeScalar? text).map fun (value, rest) => (.literal value, rest)

end

def takePath? (fuel : Nat) (text : List Char) : Option (List Segment × List Char) :=
  match text with
  | '$' :: rest => takeSegments? fuel rest
  | _ =>
    match takeShorthand? text with
    | some (selector, rest) =>
      (takeSegments? fuel rest).map (Prod.map (.child [selector] :: ·) id)
    | none => takeSegments? fuel text

def takeJoined? : Nat → Query → List Char → Option Query
  | 0, _, _ => none
  | fuel + 1, left, text =>
    let joined (join : Query → List Segment → Query) (rest : List Char) : Option Query := do
      let text := skipSpace rest
      if text.isEmpty then none
      let (right, rest) ← takePath? fuel text
      takeJoined? fuel (join left right) rest
    match skipSpace text with
    | [] => some left
    | '|' :: '|' :: _ => none
    | '|' :: rest => joined .union rest
    | '&' :: '&' :: _ => none
    | '&' :: rest => joined .intersection rest
    | _ => none

/-- At most eight calls are made between two characters that are consumed. -/
def read? (text : List Char) : Option Query := do
  let fuel := 8 * (text.length + 1)
  let (first, rest) ← takePath? fuel text
  takeJoined? fuel (.path first) rest

end Stencil.Query
