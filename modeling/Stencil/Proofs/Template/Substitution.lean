import Stencil.Path.Dotted
import Stencil.Proofs.Template.Ending

/-!
The three ways to substitute for a path: as text, as the value that is found, and unquoted. For one
path text their markers compile or are refused together, and they take the same path from it. Where
the path does not have exactly one match all three fail alike; else each makes its own of the match,
of which only the text may be refused to be made: it is if a whole number in the match is too long.
-/
namespace Stencil.Template

open Marker

variable {π : Type} (language : PathLanguage π)

def substitutions (text : String) : List String :=
  [pathMarker text, wholeMarker .raw text, wholeMarker .unquote text]

/-- A string is unquoted, and the path is named if that fails; any other value is left alone. -/
def UnquotesMatch (path : π) : Value → Except (RenderFault π) Value → Prop
  | .scalar (.string s), outcome =>
    outcome = ((Stencil.unquote s).map Value.scalar).mapError (RenderFault.unquote path)
  | v, outcome => outcome = .ok v

/-- The text of the match, or an error of its own where a whole number has no text. -/
def TextOfMatch (x : Value) (outcome : Except (RenderFault π) Value) : Prop :=
  (∃ text, Written x text ∧ outcome = .ok (.string text)) ∨
    HoldsLongNumber x ∧ endingOf language outcome = .valueError (digitLimitMessage none)

def SubstitutionOutcome (path : π) (interpolated raw unquoted : Except (RenderFault π) Value) :
    Except String (List Value) → Prop
  | .ok [x] =>
    TextOfMatch language x interpolated ∧ raw = .ok x ∧ UnquotesMatch path x unquoted
  | _ => ∃ message, ∀ outcome ∈ [interpolated, raw, unquoted],
      endingOf language outcome = .renderError path message

theorem substitutions_compile {text : String} {path : π} (enclosable : Enclosable false text.toList)
    (plain : NoOperator text.toList)
    (compiled : language.compile (unescapeString text) = .ok path) :
    (substitutions text).mapM (fun source => ofValue language (.string source)) =
      .ok [.interpolation [.path path], .raw path, .unquote path] := by
  simp only [substitutions, List.mapM_cons, List.mapM_nil,
    of_path_marker enclosable compiled plain, of_raw_marker enclosable compiled,
    of_unquote_marker enclosable compiled]
  rfl

theorem substitutions_refused {text reason : String} (enclosable : Enclosable false text.toList)
    (plain : NoOperator text.toList)
    (refused : language.compile (unescapeString text) = .error reason) :
    ∀ source ∈ substitutions text, ofValue language (.string source) =
      .error (.malformed ⟨.invalidPath (unescapeString text) reason, source, 0⟩) := by
  have inside := path_marker_reads language.compile enclosable plain
  have raw := whole_marker_reads language.compile .raw (enclosable.of_double _)
  have unquoted := whole_marker_reads language.compile .unquote (enclosable.of_double _)
  intro source listed
  simp only [substitutions, List.mem_cons, List.not_mem_nil, or_false] at listed
  rcases listed with rfl | rfl | rfl
  · exact of_string_refused inside refused
  · exact of_string_refused raw refused
  · exact of_string_refused unquoted refused

theorem unquotes_match (path : π) (x : Value) :
    UnquotesMatch path x (unquoteValue path x) := by
  cases x with
  | array items => rfl
  | object members => rfl
  | scalar s =>
    cases s with
    | string s =>
      simp only [UnquotesMatch, unquoteValue]
      cases Stencil.unquote s <;> rfl
    | _ => rfl

section Rendering

variable (root current : Value) (path : π)

theorem render_interpolated :
    render language root current (.interpolation [.path path]) =
      findOne language root current path >>= fun x => (writeValue path x).map Value.string := by
  simp only [render, List.mapM_cons, List.mapM_nil, renderToken]
  cases findOne language root current path with
  | error fault => rfl
  | ok x =>
    rw [ok_bind, ok_bind]
    cases writeValue path x with
    | error fault => rfl
    | ok text => simp [Except.map, String.join, ok_bind, pure, Except.pure]

theorem text_of_match (x : Value) :
    TextOfMatch language x ((writeValue path x).map Value.string) := by
  cases written : writeValue path x with
  | ok text => exact .inl ⟨text, write_value_ok_iff.mp written, rfl⟩
  | error fault =>
    obtain ⟨rfl, long⟩ := write_value_error_iff.mp written
    exact .inr ⟨long, rfl⟩

theorem ending_of_unfound {fault : RenderFault π}
    (failed : findOne language root current path = .error fault) :
    endingOf language (.error fault) = .renderError path (fault.message language.describe) := by
  obtain ⟨rfl, plain⟩ := find_one_fails language root failed
  exact (ending_of_matches language plain).1

theorem substitution_outcome :
    SubstitutionOutcome language path
      (render language root current (.interpolation [.path path]))
      (render language root current (.raw path))
      (render language root current (.unquote path))
      (language.evaluate root current path) := by
  rw [render_interpolated, render, render]
  cases found : findOne language root current path with
  | ok x =>
    rw [find_one_ok language root found]
    exact ⟨text_of_match language path x, rfl, unquotes_match path x⟩
  | error fault =>
    have alike : ∃ message, ∀ outcome ∈ [(.error fault : Except (RenderFault π) Value),
        .error fault, .error fault], endingOf language outcome = .renderError path message := by
      refine ⟨fault.message language.describe, ?_⟩
      intro outcome listed
      simp only [List.mem_cons, List.not_mem_nil, or_self, or_false] at listed
      subst listed
      exact ending_of_unfound language root current path found
    unfold SubstitutionOutcome
    split
    · rename_i x evaluated
      cases (find_one_of_single language root evaluated).symm.trans found
    · exact alike

end Rendering

/-- Text between two braces, three braces, or behind the sign for unquoting is one and the same
path: it is refused for the same reason at the same place, or it is found in the same documents and
not in the others, with the same message. -/
theorem substitutions_agree {text : String} (enclosable : Enclosable false text.toList)
    (plain : NoOperator text.toList) :
    (∃ reason, language.compile (unescapeString text) = .error reason ∧
      ∀ source ∈ substitutions text, ofValue language (.string source) =
        .error (.malformed ⟨.invalidPath (unescapeString text) reason, source, 0⟩)) ∨
    ∃ path, language.compile (unescapeString text) = .ok path ∧
      ∃ interpolated raw unquoted,
        (substitutions text).mapM (fun source => ofValue language (.string source)) =
          .ok [interpolated, raw, unquoted] ∧
        ∀ document, SubstitutionOutcome language path
          (interpolated.renderDocument language document) (raw.renderDocument language document)
          (unquoted.renderDocument language document)
          (language.evaluate document document path) := by
  cases compiled : language.compile (unescapeString text) with
  | error reason =>
    left
    exact ⟨reason, rfl, substitutions_refused language enclosable plain compiled⟩
  | ok path =>
    right
    refine ⟨path, rfl, .interpolation [.path path], .raw path, .unquote path, ?_, ?_⟩
    · exact substitutions_compile language enclosable plain compiled
    · intro document
      exact substitution_outcome language document document path

theorem substitutions_agree_of_escaped_braces :
    Enclosable false " a\\\x7b\x7bb ".toList ∧ NoOperator " a\\\x7b\x7bb ".toList ∧
    ∃ interpolated raw unquoted,
      (substitutions " a\\\x7b\x7bb ").mapM
          (fun source => ofValue Path.Dotted.language (.string source)) =
        .ok [interpolated, raw, unquoted] ∧
      interpolated.renderDocument Path.Dotted.language
        (.object [(.string "a\x7b\x7bb", .string "042")]) = .ok (.string "042") ∧
      raw.renderDocument Path.Dotted.language
        (.object [(.string "a\x7b\x7bb", .string "042")]) = .ok (.string "042") ∧
      unquoted.renderDocument Path.Dotted.language
        (.object [(.string "a\x7b\x7bb", .string "042")]) = .ok (.int 42) := by
  have enclosable : Enclosable false " a\\\x7b\x7bb ".toList := by
    simp [Enclosable, closer, List.infix_cons_iff]
  have plain : NoOperator " a\\\x7b\x7bb ".toList := by simp [NoOperator]
  have spelled : Path.Dotted.language.compile (unescapeString " a\\\x7b\x7bb ") =
      .ok ["a\x7b\x7bb"] := rfl
  have number : Stencil.unquote "042" = .ok (.int 42) := rfl
  refine ⟨enclosable, plain, ?_⟩
  rcases substitutions_agree Path.Dotted.language enclosable plain with
    ⟨reason, refused, _⟩ | ⟨path, compiled, interpolated, raw, unquoted, together, outcome⟩
  · cases spelled.symm.trans refused
  · cases spelled.symm.trans compiled
    obtain ⟨⟨text, written, inserted⟩ | ⟨long, _⟩, value, scalar⟩ :=
      outcome (.object [(.string "a\x7b\x7bb", .string "042")])
    · cases written
      refine ⟨interpolated, raw, unquoted, together, inserted, value, ?_⟩
      rw [scalar, number]
      rfl
    · cases long

/-- The match that is a number without a text is found, as it is and unquoted, but not written. -/
theorem long_number_substituted :
    Enclosable false "n".toList ∧ NoOperator "n".toList ∧
    (substitutions "n").mapM (fun source => ofValue Path.Dotted.language (.string source)) =
      .ok [.interpolation [.path ["n"]], .raw ["n"], .unquote ["n"]] ∧
    Path.Dotted.language.evaluate longDocument longDocument ["n"] = .ok [.int firstLong] ∧
    endingOf Path.Dotted.language
        (renderDocument Path.Dotted.language (.interpolation [.path ["n"]]) longDocument) =
      .valueError (digitLimitMessage none) ∧
    renderDocument Path.Dotted.language (.raw ["n"]) longDocument = .ok (.int firstLong) ∧
    renderDocument Path.Dotted.language (.unquote ["n"]) longDocument = .ok (.int firstLong) := by
  have enclosable : Enclosable false "n".toList := by
    simp [Enclosable, closer, List.infix_cons_iff]
  have plain : NoOperator "n".toList := by simp [NoOperator]
  have together := substitutions_compile Path.Dotted.language enclosable plain rfl
  refine ⟨enclosable, plain, together, rfl, ?_, rfl, rfl⟩
  rw [renderDocument, long_document_unwritten]
  rfl

end Stencil.Template
