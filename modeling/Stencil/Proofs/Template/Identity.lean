import Stencil.Proofs.Query.Scope
import Stencil.Proofs.Template.Marked
import Stencil.Proofs.Template.Section

/-!
Sections over the current document. A section whose body substitutes the current document gives its
items back as they are. With queries this rests on how documents are handed over: an item that is a
string is given as its JSON text and decoded to the same string, so it is never read as JSON itself.
-/
namespace Stencil.Template

open Marker

variable {π : Type} (language : PathLanguage π)

def SpellsCurrent (text : String) : Prop :=
  ∃ path, language.compile text = .ok path ∧
    ∀ root current, language.evaluate root current path = .ok [current]

def identitySection (text : String) : Value :=
  .object [(.string (wholeMarker .sectionOf text), .string (wholeMarker .raw " $ "))]

/-- If the text is a path, the section gives back the array that is the only match, as substituting
for the path does, and the list of several matches. -/
def ReturnsMatches (text : String) : Prop :=
  ∀ path, language.compile (unescapeString text) = .ok path →
    ∃ template substitution, ofValue language (identitySection text) = .ok template ∧
      ofValue language (.string (wholeMarker .raw text)) = .ok substitution ∧
      ∀ document,
        (∀ items, language.evaluate document document path = .ok [.array items] →
          template.renderDocument language document = .ok (.array items) ∧
          substitution.renderDocument language document = .ok (.array items)) ∧
        ∀ first second more,
          language.evaluate document document path = .ok (first :: second :: more) →
          template.renderDocument language document = .ok (.array (first :: second :: more))

theorem dotted_spells_current : SpellsCurrent Path.Dotted.language " $ " := by
  refine ⟨[], rfl, ?_⟩
  intro root current
  rfl

theorem query_spells_current : SpellsCurrent Query.language " $ " := by
  refine ⟨.path [], rfl, ?_⟩
  intro root current
  rw [Query.language_evaluate]
  rfl

theorem render_each_current {here : π}
    (current : ∀ root current, language.evaluate root current here = .ok [current])
    (root : Value) (items : List Value) :
    renderEach language root (.raw here) items = .ok items := by
  unfold renderEach
  rw [mapM_ok_iff, List.forall₂_same]
  intro item listed
  rw [render]
  exact find_one_of_single language root (current root item)

theorem of_identity_section {text : String} {path here : π}
    (enclosable : Enclosable false text.toList)
    (compiled : language.compile (unescapeString text) = .ok path)
    (spelled : language.compile " $ " = .ok here) :
    ofValue language (identitySection text) = .ok (.sectionOf path (.raw here)) := by
  have sign : Enclosable false " $ ".toList := by simp [Enclosable, closer, List.infix_cons_iff]
  have unescaped : unescapeString " $ " = " $ " := by decide
  have body := of_raw_marker sign (unescaped.symm ▸ spelled)
  simp only [identitySection, ofValue, body, of_section_marker enclosable compiled, ok_bind]
  rfl

theorem identity_section_of_current {text : String} (enclosable : Enclosable false text.toList)
    (current : SpellsCurrent language " $ ") : ReturnsMatches language text := by
  obtain ⟨here, spelled, finds⟩ := current
  intro path compiled
  refine ⟨_, _, of_identity_section language enclosable compiled spelled,
    of_raw_marker enclosable compiled, ?_⟩
  intro document
  have outcome := section_outcome language document (.raw here) path document
  have each := render_each_current language finds document
  constructor
  · intro items evaluated
    rw [evaluated] at outcome
    simp only [SectionOutcome, each] at outcome
    refine ⟨outcome, ?_⟩
    rw [Template.renderDocument, render]
    exact find_one_of_single language document evaluated
  · intro first second more evaluated
    rw [evaluated] at outcome
    simp only [SectionOutcome, each] at outcome
    exact outcome

/-- Whatever the items are, strings that read as JSON among them, a section over the current
document returns the array that its path finds, or the list of all that it finds, unchanged. So it
does in any language of paths with the same path to the current document. -/
theorem identity_section_returns_matches {text : String}
    (enclosable : Enclosable false text.toList) :
    ReturnsMatches Path.Dotted.language text ∧ ReturnsMatches Query.language text ∧
    ∀ (π : Type) (language : PathLanguage π), SpellsCurrent language " $ " →
      ReturnsMatches language text := by
  refine ⟨?_, ?_, ?_⟩
  · exact identity_section_of_current Path.Dotted.language enclosable dotted_spells_current
  · exact identity_section_of_current Query.language enclosable query_spells_current
  · exact fun π language => identity_section_of_current language enclosable

def readsAsJson : List Value :=
  [.string "42", .string "null", .string "\x7b\"a\":1\x7d", .string "\"\\\n\u0001😀", .int 42]

def currentOrStrings : PathLanguage Bool :=
  ⟨fun text => .ok (text == " $ "),
    fun _ current here => .ok [if here then current else .array readsAsJson], fun _ => ""⟩

theorem identity_section_returns_matches_of_strings :
    Enclosable false "tags".toList ∧
    (∃ template, ofValue Path.Dotted.language (identitySection "tags") = .ok template ∧
      template.renderDocument Path.Dotted.language
        (.object [(.string "tags", .array readsAsJson)]) = .ok (.array readsAsJson)) ∧
    (∃ template, ofValue Query.language (identitySection "tags") = .ok template ∧
      template.renderDocument Query.language
        (.object [(.string "tags", .array readsAsJson)]) = .ok (.array readsAsJson)) ∧
    ∃ template, ofValue currentOrStrings (identitySection "tags") = .ok template ∧
      template.renderDocument currentOrStrings .null = .ok (.array readsAsJson) := by
  have enclosable : Enclosable false "tags".toList := by
    simp [Enclosable, closer, List.infix_cons_iff]
  have dotted : Path.Dotted.language.compile (unescapeString "tags") = .ok ["tags"] := rfl
  have query : Query.language.compile (unescapeString "tags") =
      .ok (.path [.child [.name "tags"]]) := rfl
  obtain ⟨inDotted, inQuery, inAny⟩ := identity_section_returns_matches enclosable
  refine ⟨enclosable, ?_, ?_, ?_⟩
  · obtain ⟨template, _, compiled, _, returns⟩ := inDotted _ dotted
    exact ⟨template, compiled, ((returns _).1 readsAsJson rfl).1⟩
  · obtain ⟨template, _, compiled, _, returns⟩ := inQuery _ query
    exact ⟨template, compiled, ((returns _).1 readsAsJson rfl).1⟩
  · have spells : SpellsCurrent currentOrStrings " $ " := ⟨true, rfl, fun _ _ => rfl⟩
    obtain ⟨template, _, compiled, _, returns⟩ := inAny _ _ spells false rfl
    exact ⟨template, compiled, ((returns .null).1 readsAsJson rfl).1⟩

end Stencil.Template
