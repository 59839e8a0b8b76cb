import Stencil.Log
import Stencil.Path.Dotted
import Stencil.Proofs.Template.Compile
import Stencil.Proofs.Template.Paths
import Stencil.Proofs.Unquote
import Stencil.Proofs.Value.Text

/-!
A rendering as the list of its elementary steps, depth first and from left to right. Which steps
there are depends on the documents: a section takes the steps of its body once for each of its
documents, only what is found is written as text, and only a string is unquoted. A rendering fails
with the failure of the first step that fails, so what can be wrong with a rendering is what can be
wrong with a step.
-/
namespace Stencil.Template

open Marker (Token)

variable {π : Type} (language : PathLanguage π) (root : Value)

/-- Resolving a path to its only match, writing what a path resolved to, unquoting a text that a
path resolved to, and entering a section. -/
inductive Step (π : Type) where
  | resolve (current : Value) (path : π)
  | write (current : Value) (path : π) (v : Value)
  | unquote (current : Value) (path : π) (text : String)
  | enter (current : Value) (path : π)

def documentsAt (current : Value) (path : π) : Except (RenderFault π) (List Value) := do
  sectionDocuments path current (← findAll language root current path)

def Step.failure? : Step π → Option (RenderFault π)
  | .resolve current path => failureOf (findOne language root current path)
  | .write _ path v => failureOf (writeValue path v)
  | .unquote _ path text => failureOf (unquoteValue path (.string text))
  | .enter current path => failureOf (documentsAt language root current path)

def writeSteps (current : Value) (path : π) : Except (RenderFault π) Value → List (Step π)
  | .ok v => [.write current path v]
  | .error _ => []

def tokenSteps (current : Value) : Token π → List (Step π)
  | .text _ => []
  | .path path =>
    .resolve current path :: writeSteps current path (findOne language root current path)

def unquoteSteps (current : Value) (path : π) : Except (RenderFault π) Value → List (Step π)
  | .ok (.scalar (.string text)) => [.unquote current path text]
  | _ => []

mutual

/-- The steps of a rendering, as if no step failed. -/
def steps (current : Value) : Template π → List (Step π)
  | .literal _ => []
  | .interpolation tokens => tokens.flatMap (tokenSteps language root current)
  | .raw path => [.resolve current path]
  | .unquote path =>
    .resolve current path :: unquoteSteps current path (findOne language root current path)
  | .sectionOf path body =>
    .enter current path ::
      match documentsAt language root current path with
      | .ok documents => documents.flatMap fun document => steps document body
      | .error _ => []
  | .object members => memberSteps current members
  | .array items => itemSteps current items

def memberSteps (current : Value) : List (String × Template π) → List (Step π)
  | [] => []
  | (_, node) :: members => steps current node ++ memberSteps current members

def itemSteps (current : Value) : List (Template π) → List (Step π)
  | [] => []
  | item :: items => steps current item ++ itemSteps current items

end

theorem resolve_failure (current : Value) (path : π) :
    failureOf (findOne language root current path) =
      [Step.resolve current path].findSome? (Step.failure? language root) :=
  List.findSome?_singleton.symm

theorem write_failure (current : Value) (path : π) {v : Value}
    (found : findOne language root current path = .ok v) :
    failureOf (writeValue path v) =
      (writeSteps current path (findOne language root current path)).findSome?
        (Step.failure? language root) := by
  rw [found, writeSteps, List.findSome?_singleton]
  rfl

theorem token_failure (current : Value) (token : Token π) :
    failureOf (renderToken language root current token) =
      (tokenSteps language root current token).findSome? (Step.failure? language root) := by
  cases token with
  | text s => rfl
  | path path =>
    rw [renderToken, tokenSteps]
    exact failure_bind (resolve_failure language root current path) fun v found =>
      write_failure language root current path found

theorem unquote_failure (current : Value) (path : π) {v : Value}
    (found : findOne language root current path = .ok v) :
    failureOf (unquoteValue path v) =
      (unquoteSteps current path (findOne language root current path)).findSome?
        (Step.failure? language root) := by
  rw [found]
  unfold unquoteValue
  split
  · simp [unquoteSteps, Step.failure?, unquoteValue, Value.string]
  · rename_i other
    unfold unquoteSteps
    split
    · rename_i same
      simp at same
      exact absurd same (other _)
    · rfl

mutual

/-- A rendering fails with the failure of its first step that fails. -/
theorem render_failure : (template : Template π) → (current : Value) →
    failureOf (render language root current template) =
      (steps language root current template).findSome? (Step.failure? language root)
  | .literal s, current => rfl
  | .interpolation tokens, current => by
    rw [render, steps, ← failure_mapM tokens (token_failure language root current)]
    exact failure_map _ _
  | .raw path, current => by
    rw [render, steps]
    exact resolve_failure language root current path
  | .unquote path, current => by
    rw [render, steps]
    exact failure_bind (resolve_failure language root current path) fun v found =>
      unquote_failure language root current path found
  | .sectionOf path body, current => by
    have split : render language root current (.sectionOf path body) =
        documentsAt language root current path >>= fun documents =>
          (return .array (← documents.mapM fun document =>
            render language root document body)) := by
      rw [render, documentsAt, bind_assoc]
    -- evaluating the path and reading its matches as documents is one step
    have entered : failureOf (documentsAt language root current path) =
        [Step.enter current path].findSome? (Step.failure? language root) := by
      rw [List.findSome?_singleton]
      rfl
    rw [split, steps]
    refine failure_bind entered fun documents found => ?_
    rw [found, ← failure_mapM documents fun document => render_failure body document]
    exact failure_map _ _
  | .object members, current => by
    rw [render, steps, ← member_failure members current]
    exact failure_map _ _
  | .array items, current => by
    rw [render, steps, ← item_failure items current]
    exact failure_map _ _

theorem member_failure : (members : List (String × Template π)) → (current : Value) →
    failureOf (renderMembers language root current members) =
      (memberSteps language root current members).findSome? (Step.failure? language root)
  | [], current => rfl
  | (name, node) :: members, current => by
    rw [renderMembers, memberSteps]
    refine failure_bind (render_failure node current) fun v _ => ?_
    rw [← member_failure members current]
    exact failure_map _ _

theorem item_failure : (items : List (Template π)) → (current : Value) →
    failureOf (renderItems language root current items) =
      (itemSteps language root current items).findSome? (Step.failure? language root)
  | [], current => rfl
  | item :: items, current => by
    rw [renderItems, itemSteps]
    refine failure_bind (render_failure item current) fun v _ => ?_
    rw [← item_failure items current]
    exact failure_map _ _

end

theorem find_all_ok {current : Value} {path : π} {found : List Value}
    (done : findAll language root current path = .ok found) :
    language.evaluate root current path = .ok found := by
  unfold findAll at done
  split at done <;> cases done
  assumption

theorem find_one_ok {current v : Value} {path : π}
    (done : findOne language root current path = .ok v) :
    language.evaluate root current path = .ok [v] := by
  unfold findOne at done
  obtain ⟨found, all, one⟩ := bind_ok done
  split at one <;> cases one
  exact find_all_ok language root all

/-- A step is that of a path among the given ones. Writing and unquoting are those of such a node,
and what they take is what the path has resolved to. -/
def Step.StemsFrom (paths : List π) (nodes : List (Template π)) : Step π → Prop
  | .resolve _ path => path ∈ paths
  | .write current path v =>
    (∃ tokens, .interpolation tokens ∈ nodes ∧ .path path ∈ tokens) ∧
      findOne language root current path = .ok v
  | .unquote current path text =>
    .unquote path ∈ nodes ∧ findOne language root current path = .ok (.string text)
  | .enter _ path => path ∈ paths

theorem Step.StemsFrom.mono {paths others : List π} {nodes more : List (Template π)} {step : Step π}
    (stems : step.StemsFrom language root paths nodes) (wider : paths ⊆ others)
    (further : nodes ⊆ more) : step.StemsFrom language root others more := by
  cases step with
  | resolve current path => exact wider stems
  | write current path v =>
    obtain ⟨⟨tokens, inside, named⟩, found⟩ := stems
    exact ⟨⟨tokens, further inside, named⟩, found⟩
  | unquote current path text => exact ⟨further stems.1, stems.2⟩
  | enter current path => exact wider stems

mutual

theorem steps_stem : (template : Template π) → (current : Value) →
    ∀ step ∈ steps language root current template,
      step.StemsFrom language root template.paths template.nodes
  | .literal s, current => by simp [steps]
  | .interpolation tokens, current => by
    intro step member
    obtain ⟨token, there, same⟩ := List.mem_flatMap.mp member
    cases token with
    | text s => simp [tokenSteps] at same
    | path path =>
      rcases List.mem_cons.mp same with rfl | later
      · exact List.mem_filterMap.mpr ⟨_, there, rfl⟩
      · unfold writeSteps at later
        split at later
        · rename_i v found
          obtain rfl := List.mem_singleton.mp later
          exact ⟨⟨tokens, List.mem_singleton_self _, there⟩, found⟩
        · contradiction
  | .raw path, current => by
    intro step member
    obtain rfl := List.mem_singleton.mp member
    exact List.mem_singleton_self path
  | .unquote path, current => by
    intro step member
    rcases List.mem_cons.mp member with rfl | later
    · exact List.mem_singleton_self path
    · unfold unquoteSteps at later
      split at later
      · rename_i text found
        obtain rfl := List.mem_singleton.mp later
        exact ⟨List.mem_singleton_self _, found⟩
      · contradiction
  | .sectionOf path body, current => by
    intro step member
    rcases List.mem_cons.mp member with rfl | later
    · simp [Step.StemsFrom, paths]
    · split at later
      · obtain ⟨document, _, inside⟩ := List.mem_flatMap.mp later
        exact (steps_stem body document step inside).mono language root
          (List.subset_append_left _ _) (List.subset_cons_self _ _)
      · contradiction
  | .object members, current => by
    intro step member
    exact (member_steps_stem members current step member).mono language root
      (List.Subset.refl _) (List.subset_cons_self _ _)
  | .array items, current => by
    intro step member
    exact (item_steps_stem items current step member).mono language root
      (List.Subset.refl _) (List.subset_cons_self _ _)

theorem member_steps_stem : (members : List (String × Template π)) → (current : Value) →
    ∀ step ∈ memberSteps language root current members,
      step.StemsFrom language root (memberPaths members) (memberNodes members)
  | [], current => by simp [memberSteps]
  | (name, node) :: members, current => by
    intro step member
    rcases List.mem_append.mp member with here | later
    · exact (steps_stem node current step here).mono language root
        (List.subset_append_left _ _) (List.subset_append_left _ _)
    · exact (member_steps_stem members current step later).mono language root
        (List.subset_append_right _ _) (List.subset_append_right _ _)

theorem item_steps_stem : (items : List (Template π)) → (current : Value) →
    ∀ step ∈ itemSteps language root current items,
      step.StemsFrom language root (itemPaths items) (itemNodes items)
  | [], current => by simp [itemSteps]
  | item :: items, current => by
    intro step member
    rcases List.mem_append.mp member with here | later
    · exact (steps_stem item current step here).mono language root
        (List.subset_append_left _ _) (List.subset_append_left _ _)
    · exact (item_steps_stem items current step later).mono language root
        (List.subset_append_right _ _) (List.subset_append_right _ _)

end

theorem render_ok_iff {template : Template π} {current : Value} :
    (∃ v, render language root current template = .ok v) ↔
      ∀ step ∈ steps language root current template, step.failure? language root = none := by
  rw [← failure_none_iff, render_failure, List.findSome?_eq_none_iff]

/-- The step is the first one of the rendering that fails, and this is how. -/
def FailsFirst (template : Template π) (current : Value) (step : Step π)
    (fault : RenderFault π) : Prop :=
  ∃ before behind, steps language root current template = before ++ step :: behind ∧
    (∀ earlier ∈ before, earlier.failure? language root = none) ∧
    step.failure? language root = some fault

theorem render_error_iff {template : Template π} {current : Value} {fault : RenderFault π} :
    render language root current template = .error fault ↔
      ∃ step, FailsFirst language root template current step fault := by
  rw [← failure_some_iff, render_failure, first_failure_iff]
  exact exists_comm

theorem write_failure_iff {current v : Value} {path : π} {fault : RenderFault π} :
    (Step.write current path v).failure? language root = some fault ↔
      fault = .tooLong path ∧ HoldsLongNumber v := by
  rw [Step.failure?, failure_some_iff, write_value_error_iff]

/-- A rendering succeeds if all its steps do, and otherwise ends with the fault of the first step
that fails, whatever nodes are around it. Writing fails for a whole number of too many digits. -/
theorem render_fails_at_first_failing_step (template : Template π) (current : Value) :
    ((∃ v, render language root current template = .ok v) ↔
      ∀ step ∈ steps language root current template, step.failure? language root = none) ∧
    (∀ fault, render language root current template = .error fault ↔
      ∃ step, FailsFirst language root template current step fault) ∧
    ∀ writing path v fault, (Step.write writing path v).failure? language root = some fault ↔
      fault = .tooLong path ∧ HoldsLongNumber v :=
  ⟨render_ok_iff language root, fun _ => render_error_iff language root,
    fun _ _ _ _ => write_failure_iff language root⟩

/-- A document with a whole number that has no text. -/
def longDocument : Value := .object [(.string "n", .int firstLong)]

theorem long_document_found :
    findOne Path.Dotted.language longDocument longDocument ["n"] = .ok (.int firstLong) :=
  rfl

theorem long_document_unwritten :
    render Path.Dotted.language longDocument longDocument (.interpolation [.path ["n"]]) =
      .error (.tooLong ["n"]) := by
  have unwritten : writeValue ["n"] (.int firstLong) = .error (.tooLong ["n"]) :=
    write_value_error_iff.mpr ⟨rfl, .number first_long_beyond⟩
  rw [render, List.mapM_cons, renderToken, long_document_found, ok_bind, unwritten]
  rfl

/-- Not every rendering whose paths all resolve to their only match succeeds. -/
theorem resolved_path_not_written :
    steps Path.Dotted.language longDocument longDocument (.interpolation [.path ["n"]]) =
      [.resolve longDocument ["n"], .write longDocument ["n"] (.int firstLong)] ∧
    (Step.resolve longDocument ["n"]).failure? Path.Dotted.language longDocument = none ∧
    render Path.Dotted.language longDocument longDocument (.interpolation [.path ["n"]]) =
      .error (.tooLong ["n"]) :=
  ⟨rfl, rfl, long_document_unwritten⟩

variable {language root}

theorem steps_succeed {template : Template π} {current v : Value}
    (done : render language root current template = .ok v) :
    ∀ step ∈ steps language root current template, step.failure? language root = none :=
  (render_ok_iff language root).mp ⟨v, done⟩

section FailsFirst

variable {template : Template π} {current : Value} {step : Step π} {fault : RenderFault π}
  (first : FailsFirst language root template current step fault)
include first

theorem FailsFirst.listed : step ∈ steps language root current template := by
  obtain ⟨before, behind, split, _⟩ := first
  simp [split]

theorem FailsFirst.fails : step.failure? language root = some fault := by
  obtain ⟨before, behind, _, _, fails⟩ := first
  exact fails

end FailsFirst

theorem first_failing_step {template : Template π} {current : Value} {fault : RenderFault π}
    (failed : render language root current template = .error fault) :
    ∃ step, FailsFirst language root template current step fault ∧
      step.StemsFrom language root template.paths template.nodes := by
  obtain ⟨step, first⟩ := (render_error_iff language root).mp failed
  exact ⟨step, first, steps_stem language root template current step first.listed⟩

end Stencil.Template
