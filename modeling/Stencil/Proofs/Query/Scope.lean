import Stencil.Proofs.Json.Literal
import Stencil.Query.Language

/-!
What a query reads of the root document. Only a query at the root, somewhere in a filter, looks at
it; a query that holds none of these selects the same values whatever the root document is.
-/
namespace Stencil.Query

mutual

def segmentsReadRoot : List Segment → Bool
  | [] => false
  | segment :: segments => segmentReadsRoot segment || segmentsReadRoot segments

def segmentReadsRoot : Segment → Bool
  | .child selectors => selectorsReadRoot selectors
  | .descendants selectors => selectorsReadRoot selectors

def selectorsReadRoot : List Selector → Bool
  | [] => false
  | selector :: selectors => selectorReadsRoot selector || selectorsReadRoot selectors

def selectorReadsRoot : Selector → Bool
  | .filter condition => expressionReadsRoot condition
  | _ => false

/-- A query at the root may stand in a filter of another query. -/
def expressionReadsRoot : Expression → Bool
  | .query origin segments => origin = .root || segmentsReadRoot segments
  | .literal _ => false
  | .compare _ left right => expressionReadsRoot left || expressionReadsRoot right
  | .not operand => expressionReadsRoot operand
  | .and left right => expressionReadsRoot left || expressionReadsRoot right
  | .or left right => expressionReadsRoot left || expressionReadsRoot right

end

end Query

def Query.readsRoot : Query → Bool
  | .path segments => Query.segmentsReadRoot segments
  | .union left right => left.readsRoot || Query.segmentsReadRoot right
  | .intersection left right => left.readsRoot || Query.segmentsReadRoot right

namespace Query

variable {first second : Value}

theorem start_root_free {origin : Origin} (free : origin ≠ .root) (document item : Value) :
    startOf first document item origin = startOf second document item origin := by
  cases origin with
  | item => rfl
  | current => rfl
  | root => exact absurd rfl free

theorem outcome_query {root document item : Value} {origin : Origin} {segments : List Segment}
    (other : ¬ (origin = .item ∧ segments = [])) :
    outcome root document item (.query origin segments) = do
      let start := startOf root document item origin
      return .found (← select root start.1 start.2 segments) :=
  outcome.eq_3 _ _ _ _ _ fun item none => other ⟨item, none⟩

mutual

theorem select_root_free : (segments : List Segment) → segmentsReadRoot segments = false →
    ∀ document values,
      select first document values segments = select second document values segments
  | [], _, document, values => rfl
  | segment :: segments, free, document, values => by
    simp only [segmentsReadRoot, Bool.or_eq_false_iff] at free
    have each := fun v => select_by_root_free segment free.1 document v
    simp only [select, each, select_root_free segments free.2]

theorem select_by_root_free : (segment : Segment) → segmentReadsRoot segment = false →
    ∀ document v, selectBy first document v segment = selectBy second document v segment
  | .child selectors, free, document, v => by
    simp only [segmentReadsRoot] at free
    simp only [selectBy, select_each_root_free selectors free]
  | .descendants selectors, free, document, v => by
    simp only [segmentReadsRoot] at free
    simp only [selectBy, select_each_root_free selectors free]

theorem select_each_root_free : (selectors : List Selector) → selectorsReadRoot selectors = false →
    ∀ document v, selectEach first document v selectors = selectEach second document v selectors
  | [], _, document, v => rfl
  | selector :: selectors, free, document, v => by
    simp only [selectorsReadRoot, Bool.or_eq_false_iff] at free
    simp only [selectEach, select_one_root_free selector free.1,
      select_each_root_free selectors free.2]

theorem select_one_root_free : (selector : Selector) → selectorReadsRoot selector = false →
    ∀ document v, selectOne first document v selector = selectOne second document v selector
  | .name _, _, document, v => rfl
  | .index _, _, document, v => rfl
  | .slice _ _ _, _, document, v => rfl
  | .wildcard, _, document, v => rfl
  | .filter condition, free, document, v => by
    simp only [selectorReadsRoot] at free
    simp only [selectOne, outcome_root_free condition free]

theorem outcome_root_free : (condition : Expression) → expressionReadsRoot condition = false →
    ∀ document item, outcome first document item condition = outcome second document item condition
  | .query origin segments, free, document, item => by
    simp only [expressionReadsRoot, Bool.or_eq_false_iff, decide_eq_false_iff_not] at free
    by_cases whole : origin = .item ∧ segments = []
    · obtain ⟨rfl, rfl⟩ := whole
      cases item <;> rfl
    · have start : startOf first document item origin = startOf second document item origin :=
        start_root_free free.1 document item
      simp only [outcome_query whole, start, select_root_free segments free.2]
  | .literal _, _, document, item => rfl
  | .compare _ left right, free, document, item => by
    simp only [expressionReadsRoot, Bool.or_eq_false_iff] at free
    simp only [outcome, outcome_root_free left free.1, outcome_root_free right free.2]
  | .not operand, free, document, item => by
    simp only [expressionReadsRoot] at free
    simp only [outcome, outcome_root_free operand free]
  | .and left right, free, document, item => by
    simp only [expressionReadsRoot, Bool.or_eq_false_iff] at free
    simp only [outcome, outcome_root_free left free.1, outcome_root_free right free.2]
  | .or left right, free, document, item => by
    simp only [expressionReadsRoot, Bool.or_eq_false_iff] at free
    simp only [outcome, outcome_root_free left free.1, outcome_root_free right free.2]

end

theorem evaluate_root_free (document : Value) {query : Query} (free : query.readsRoot = false) :
    evaluate first document query = evaluate second document query := by
  induction query with
  | path segments => exact select_root_free segments free document [document]
  | union left right ih =>
    simp only [readsRoot, Bool.or_eq_false_iff] at free
    have behind : select first document [document] right =
        select second document [document] right := select_root_free right free.2 document [document]
    simp only [evaluate, ih free.1, behind]
  | intersection left right ih =>
    simp only [readsRoot, Bool.or_eq_false_iff] at free
    have behind : select first document [document] right =
        select second document [document] right := select_root_free right free.2 document [document]
    simp only [evaluate, ih free.1, behind]

theorem given_value (v : Value) : ofGiven? (toGiven v) = some v := by
  cases v with
  | scalar s =>
    cases s with
    | string s => exact Json.decode_string s
    | _ => rfl
  | array items => rfl
  | object members => rfl

theorem language_evaluate (root current : Value) (query : Query) :
    language.evaluate root current query =
      match evaluate root current query with
      | .ok found => .ok found
      | .error _ => .error faultText := by
  simp only [language, evaluateGiven?, given_value, Option.bind_eq_bind, Option.bind_some]
  cases evaluate root current query <;> rfl

theorem language_root_free {query : Query} (free : query.readsRoot = false) (current : Value) :
    language.evaluate first current query = language.evaluate second current query := by
  have same : evaluate first current query = evaluate second current query :=
    evaluate_root_free current free
  rw [language_evaluate, language_evaluate, same]

end Query
end Stencil
