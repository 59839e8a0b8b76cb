import Stencil.Path.Dotted
import Stencil.Proofs.Template.Ending

/-!
What a section comes to, by the matches of its path. A single array and several matches are items
that the body is rendered on; a single boolean renders the body once or not at all; everything else
is a failure of the section's path.
-/
namespace Stencil.Template

variable {π : Type} (language : PathLanguage π) (root : Value)

def renderEach (body : Template π) (items : List Value) : Except (RenderFault π) (List Value) :=
  items.mapM fun item => render language root item body

/-- The outcome has a result for each item in its place, or it is the fault of the first item on
which the body fails. -/
structure Iterates (body : Template π) (items : List Value)
    (outcome : Except (RenderFault π) (List Value)) : Prop where
  results_iff : ∀ results, outcome = .ok results ↔
    List.Forall₂ (fun item result => render language root item body = .ok result) items results
  fault_iff : ∀ fault, outcome = .error fault ↔
    ∃ before item after, items = before ++ item :: after ∧
      (∀ earlier ∈ before, ∃ v, render language root earlier body = .ok v) ∧
      render language root item body = .error fault

/-- The outcome of a section by what its path evaluates to. Several matches are read as a single
array of them would be, and a boolean counts only where it is the single match. -/
def SectionOutcome (body : Template π) (path : π) (current : Value) :
    Except String (List Value) → Except (RenderFault π) Value → Prop
  | .ok [.array items], outcome => outcome = (renderEach language root body items).map .array
  | .ok [.scalar (.bool true)], outcome =>
    outcome = (render language root current body).map fun v => .array [v]
  | .ok [.scalar (.bool false)], outcome => outcome = .ok (.array [])
  | .ok (first :: second :: more), outcome =>
    outcome = (renderEach language root body (first :: second :: more)).map .array
  | _, outcome => ∃ message, endingOf language outcome = .renderError path message

theorem render_each_iterates (body : Template π) (items : List Value) :
    Iterates language root body items (renderEach language root body items) :=
  ⟨fun _ => mapM_ok_iff, fun _ => mapM_error_iff⟩

theorem render_each_append (body : Template π) (items others : List Value) :
    renderEach language root body (items ++ others) = do
      let results ← renderEach language root body items
      return results ++ (← renderEach language root body others) := by
  simp only [renderEach, List.mapM_append]

theorem section_outcome (body : Template π) (path : π) (current : Value) :
    SectionOutcome language root body path current (language.evaluate root current path)
      (render language root current (.sectionOf path body)) := by
  rw [render, findAll]
  cases language.evaluate root current path with
  | error reason => exact ⟨_, rfl⟩
  | ok found =>
    match found with
    | [] => exact ⟨_, rfl⟩
    | [.scalar (.bool true)] =>
      simp only [SectionOutcome, sectionDocuments, ok_bind, List.mapM_cons, List.mapM_nil]
      cases render language root current body <;> rfl
    | [.scalar (.bool false)] => rfl
    | [.array items] => rfl
    | [.object members] => exact ⟨_, rfl⟩
    | [.scalar .null] => exact ⟨_, rfl⟩
    | [.scalar (.int _)] => exact ⟨_, rfl⟩
    | [.scalar (.float _)] => exact ⟨_, rfl⟩
    | [.scalar (.string _)] => exact ⟨_, rfl⟩
    | first :: second :: more =>
      simp only [SectionOutcome, sectionDocuments, ok_bind]
      rfl

/-- A section renders by the matches of its path alone. Over items it fails as the first of them
that fails, and items in a row come to what they come to apart, in a row. -/
theorem section_renders_by_matches (body : Template π) (path : π) (current : Value) :
    SectionOutcome language root body path current (language.evaluate root current path)
      (render language root current (.sectionOf path body)) ∧
    (∀ items, Iterates language root body items (renderEach language root body items)) ∧
    ∀ items others, renderEach language root body (items ++ others) = do
      let results ← renderEach language root body items
      return results ++ (← renderEach language root body others) :=
  ⟨section_outcome language root body path current, render_each_iterates language root body,
    render_each_append language root body⟩

/-- Among several matches an array is not opened and a boolean is no gate. -/
example : render Path.Dotted.language .null
    (.object [(.string "xs", .array [.array [.null, .null], .bool false])])
    (.sectionOf ["xs", "*"] (.raw [])) = .ok (.array [.array [.null, .null], .bool false]) := rfl

end Stencil.Template
