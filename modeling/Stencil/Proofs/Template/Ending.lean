import Stencil.Proofs.Template.Marked
import Stencil.Proofs.Template.Steps

/-!
How a rendering ends: with a value or with one of three errors, and with what is logged of it.
Each error is that of a step, so its path is one of the template; and the one error without a
record is that of a whole number that is too long to be unquoted or to be written.
-/
namespace Stencil

variable {π : Type}

inductive Ending (π : Type) where
  | value (v : Value)
  | renderError (path : π) (message : String)
  | unquoteError (path : π) (message : String)
  | valueError (message : String)

def endingOf (language : PathLanguage π) : Except (RenderFault π) Value → Ending π
  | .ok v => .value v
  | .error (.unquote path (.notScalar text)) =>
    .unquoteError path (UnquoteFault.notScalar text).message
  | .error (.unquote _ (.tooManyDigits count)) =>
    .valueError (UnquoteFault.tooManyDigits count).message
  | .error (.tooLong _) => .valueError (digitLimitMessage none)
  | .error fault => .renderError fault.path (fault.message language.describe)

/-- The fault is in the evaluation of a path or in the number or shape of its matches. -/
def RenderFault.IsOfMatches : RenderFault π → Prop
  | .unquote _ _ => False
  | .tooLong _ => False
  | _ => True

namespace Template

variable (language : PathLanguage π) (root : Value)

/-- The first step that fails unquotes a whole number of `count` digits, the only match of the path
of an unquoting node; that is more than 4300. -/
def StopsAtLongNumber (template : Template π) (count : Nat) : Prop :=
  ∃ current path text,
    FailsFirst language root template root (.unquote current path text)
      (.unquote path (.tooManyDigits count)) ∧
    language.evaluate root current path = .ok [.string text] ∧ .unquote path ∈ template.nodes ∧
    IntegerText text count ∧ 4300 < count

/-- The first step that fails writes the only match of a path that stands between text; a whole
number in that match is too long. -/
def StopsAtLongText (template : Template π) : Prop :=
  ∃ current path v,
    FailsFirst language root template root (.write current path v) (.tooLong path) ∧
    language.evaluate root current path = .ok [v] ∧
    (∃ tokens, .interpolation tokens ∈ template.nodes ∧ .path path ∈ tokens) ∧ HoldsLongNumber v

def Contract (template : Template π) : Ending π → List LogRecord → Prop
  | .value _, log =>
    (∀ step ∈ steps language root root template, step.failure? language root = none) ∧ log = []
  | .renderError path message, log => path ∈ template.paths ∧ log = [.renderFailed message]
  | .unquoteError path message, log =>
    .unquote path ∈ template.nodes ∧ log = [.renderFailed message]
  | .valueError message, log =>
    ((∃ count, message = (UnquoteFault.tooManyDigits count).message ∧
        StopsAtLongNumber language root template count) ∨
      message = digitLimitMessage none ∧ StopsAtLongText language root template) ∧ log = []

theorem found_fails {α : Type} {current : Value} {path : π} {fault : RenderFault π}
    {use : List Value → Except (RenderFault π) α}
    (own : ∀ found e, use found = .error e → e.path = path ∧ e.IsOfMatches)
    (failed : (findAll language root current path >>= use) = .error fault) :
    fault.path = path ∧ fault.IsOfMatches := by
  unfold findAll at failed
  split at failed
  · exact own _ _ failed
  · cases failed
    exact ⟨rfl, trivial⟩

theorem find_one_fails {current : Value} {path : π} {fault : RenderFault π}
    (failed : findOne language root current path = .error fault) :
    fault.path = path ∧ fault.IsOfMatches := by
  refine found_fails language root ?_ failed
  intro found e made
  split at made <;> cases made
  exact ⟨rfl, trivial⟩

theorem documents_at_fails {current : Value} {path : π} {fault : RenderFault π}
    (failed : documentsAt language root current path = .error fault) :
    fault.path = path ∧ fault.IsOfMatches := by
  refine found_fails language root ?_ failed
  intro found e made
  unfold sectionDocuments at made
  split at made <;> cases made <;> exact ⟨rfl, trivial⟩

theorem unquote_value_fails {path : π} {text : String} {fault : RenderFault π}
    (failed : unquoteValue path (.string text) = .error fault) :
    ∃ cause, fault = .unquote path cause ∧ Stencil.unquote text = .error cause := by
  simp only [unquoteValue, Value.string] at failed
  split at failed
  · cases failed
  · rename_i cause refused
    cases failed
    exact ⟨cause, rfl, refused⟩

theorem ending_of_matches {fault : RenderFault π} (plain : fault.IsOfMatches) :
    endingOf language (.error fault) = .renderError fault.path (fault.message language.describe) ∧
      Log.ofRendered language (.error fault) =
        [.renderFailed (fault.message language.describe)] := by
  cases fault with
  | unquote path cause => contradiction
  | tooLong path => contradiction
  | _ => exact ⟨rfl, rfl⟩

theorem contract_of_matches {template : Template π} {fault : RenderFault π}
    (plain : fault.IsOfMatches) (listed : fault.path ∈ template.paths) :
    Contract language root template (endingOf language (.error fault))
      (Log.ofRendered language (.error fault)) := by
  obtain ⟨ending, log⟩ := ending_of_matches language plain
  rw [ending, log]
  exact ⟨listed, rfl⟩

/-- A rendering ends with a value if no step fails; else with a failure of one of the template's
paths, with a failure to unquote of one of its unquoting nodes, or at a whole number of more than
4300 digits, read or written. The two failures are logged once, and nothing else is. -/
theorem rendering_keeps_contract (template : Template π) (document : Value) :
    Contract language document template
      (endingOf language (template.renderDocument language document))
      (Log.ofRendered language (template.renderDocument language document)) := by
  cases result : template.renderDocument language document with
  | ok v => exact ⟨steps_succeed result, rfl⟩
  | error fault =>
    obtain ⟨step, first, stems⟩ := first_failing_step result
    cases step with
    | resolve current path =>
      obtain ⟨rfl, plain⟩ := find_one_fails language document (failure_some_iff.mp first.fails)
      exact contract_of_matches language document plain stems
    | enter current path =>
      obtain ⟨rfl, plain⟩ := documents_at_fails language document (failure_some_iff.mp first.fails)
      exact contract_of_matches language document plain stems
    | write current path v =>
      obtain ⟨inside, found⟩ := stems
      obtain ⟨rfl, long⟩ := (write_failure_iff language document).mp first.fails
      have matched := find_one_ok language document found
      exact ⟨.inr ⟨rfl, current, path, v, first, matched, inside, long⟩, rfl⟩
    | unquote current path text =>
      obtain ⟨inside, found⟩ := stems
      obtain ⟨cause, rfl, refused⟩ := unquote_value_fails (failure_some_iff.mp first.fails)
      cases cause with
      | notScalar text => exact ⟨inside, rfl⟩
      | tooManyDigits count =>
        obtain ⟨shape, long⟩ := too_many_digits refused
        have matched := find_one_ok language document found
        exact ⟨.inl ⟨count, rfl, current, path, text, first, matched, inside, shape, long⟩, rfl⟩

/-- A rendering may stop at a long number though nothing is unquoted. -/
theorem long_number_not_unquoted :
    ofValue Path.Dotted.language (.string "\x7b\x7bn\x7d\x7d") =
      .ok (.interpolation [.path ["n"]]) ∧
    endingOf Path.Dotted.language
        (renderDocument Path.Dotted.language (.interpolation [.path ["n"]]) longDocument) =
      .valueError (digitLimitMessage none) ∧
    ∀ path, .unquote path ∉ nodes (.interpolation [.path ["n"]] : Template (List String)) := by
  have enclosable : Marker.Enclosable false "n".toList := by
    simp [Marker.Enclosable, Marker.closer, List.infix_cons_iff]
  have plain : Marker.NoOperator "n".toList := by simp [Marker.NoOperator]
  have spelled : Marker.pathMarker "n" = "\x7b\x7bn\x7d\x7d" := by decide
  have compiled : Path.Dotted.language.compile (Marker.unescapeString "n") = .ok ["n"] := rfl
  refine ⟨?_, ?_, by simp [nodes]⟩
  · rw [← spelled]
    exact of_path_marker enclosable compiled plain
  · rw [renderDocument, long_document_unwritten]
    rfl

end Template
end Stencil
