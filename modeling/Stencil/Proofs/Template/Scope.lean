import Mathlib.Data.List.Forall2
import Stencil.Path.Dotted
import Stencil.Proofs.Query.Scope
import Stencil.Proofs.Template.Compile
import Stencil.Proofs.Template.Paths
import Stencil.Template.Render

/-!
Two runs of one template, on documents that its paths do not tell apart. A section leads both runs
to the same items, or leaves each with its own current document, so nothing below it can tell the
runs apart either.
-/
namespace Stencil

open Marker (Token)

namespace Path.Dotted

def StartsAtRoot (path : List String) : Prop := path.head? = some "^"

theorem evaluate_from_current {path : List String} (free : ¬ StartsAtRoot path)
    (root current : Value) : evaluate root current path = walk path [current] := by
  unfold evaluate
  split
  · exact absurd rfl free
  · rfl

theorem evaluate_from_root {path : List String} (marked : StartsAtRoot path)
    (root current : Value) : evaluate root current path = walk path.tail [root] := by
  obtain ⟨segments, rfl⟩ := List.head?_eq_some_iff.mp marked
  rfl

end Path.Dotted

namespace Template

open Path.Dotted (StartsAtRoot)

variable {π : Type} {language : PathLanguage π} {first second : Value}
  {Alike : Value → Value → Prop}

/-- A path has the same outcome in both runs: their root documents are `first` and `second`, and
their current ones are alike. -/
def SameInBoth (language : PathLanguage π) (first second : Value) (Alike : Value → Value → Prop)
    (path : π) : Prop :=
  ∀ one two, Alike one two → language.evaluate first one path = language.evaluate second two path

section Steps

variable {one two : Value} (alike : Alike one two)
include alike

theorem find_all_same {path : π} (same : SameInBoth language first second Alike path) :
    findAll language first one path = findAll language second two path := by
  rw [findAll, findAll, same one two alike]

theorem find_one_same {path : π} (same : SameInBoth language first second Alike path) :
    findOne language first one path = findOne language second two path := by
  rw [findOne, findOne, find_all_same alike same]

theorem render_tokens_same {tokens : List (Token π)}
    (same : ∀ path ∈ tokens.filterMap Token.path?, SameInBoth language first second Alike path) :
    tokens.mapM (renderToken language first one) =
      tokens.mapM (renderToken language second two) := by
  refine mapM_same (List.forall₂_same.mpr fun token member => ?_)
  cases token with
  | text s => rfl
  | path path =>
    have reached : path ∈ tokens.filterMap Token.path? :=
      List.mem_filterMap.mpr ⟨.path path, member, rfl⟩
    rw [renderToken, renderToken, find_one_same alike (same path reached)]

theorem section_documents_alike (reflexive : ∀ v, Alike v v) (path : π) (found : List Value) :
    (∃ fault, sectionDocuments path one found = .error fault ∧
      sectionDocuments path two found = .error fault) ∨
    ∃ left right, sectionDocuments path one found = .ok left ∧
      sectionDocuments path two found = .ok right ∧ List.Forall₂ Alike left right := by
  have own (documents : List Value) : List.Forall₂ Alike documents documents :=
    List.forall₂_same.mpr fun v _ => reflexive v
  match found with
  | [] => exact .inl ⟨_, rfl, rfl⟩
  | [.scalar (.bool true)] => exact .inr ⟨_, _, rfl, rfl, .cons alike .nil⟩
  | [.scalar (.bool false)] => exact .inr ⟨_, _, rfl, rfl, .nil⟩
  | [.array items] => exact .inr ⟨_, _, rfl, rfl, own items⟩
  | [.object members] => exact .inl ⟨_, rfl, rfl⟩
  | [.scalar .null] => exact .inl ⟨_, rfl, rfl⟩
  | [.scalar (.int _)] => exact .inl ⟨_, rfl, rfl⟩
  | [.scalar (.float _)] => exact .inl ⟨_, rfl, rfl⟩
  | [.scalar (.string _)] => exact .inl ⟨_, rfl, rfl⟩
  | v :: w :: more =>
    exact .inr ⟨_, _, by simp [sectionDocuments], by simp [sectionDocuments], own (v :: w :: more)⟩

end Steps

mutual

theorem render_same (reflexive : ∀ v, Alike v v) : (template : Template π) →
    (∀ path ∈ template.paths, SameInBoth language first second Alike path) →
    ∀ one two, Alike one two →
      render language first one template = render language second two template
  | .literal s, _, one, two, _ => rfl
  | .interpolation tokens, same, one, two, alike => by
    rw [render, render, render_tokens_same alike same]
  | .raw path, same, one, two, alike => by
    rw [render, render, find_one_same alike (same path (by simp [paths]))]
  | .unquote path, same, one, two, alike => by
    rw [render, render, find_one_same alike (same path (by simp [paths]))]
  | .sectionOf path body, same, one, two, alike => by
    have inner := render_same reflexive body fun other member =>
      same other (by simp [paths, member])
    rw [render, render, find_all_same alike (same path (by simp [paths]))]
    cases findAll language second two path with
    | error fault => rfl
    | ok found =>
      rw [ok_bind, ok_bind]
      rcases section_documents_alike alike reflexive path found with
        ⟨fault, left, right⟩ | ⟨left, right, one_run, other_run, pairs⟩
      · rw [left, right, error_bind, error_bind]
      · have each := pairs.imp fun u v related => inner u v related
        rw [one_run, other_run, ok_bind, ok_bind, mapM_same each]
  | .object members, same, one, two, alike => by
    rw [render, render, render_members_same reflexive members same one two alike]
  | .array items, same, one, two, alike => by
    rw [render, render, render_items_same reflexive items same one two alike]

theorem render_members_same (reflexive : ∀ v, Alike v v) :
    (members : List (String × Template π)) →
    (∀ path ∈ memberPaths members, SameInBoth language first second Alike path) →
    ∀ one two, Alike one two →
      renderMembers language first one members = renderMembers language second two members
  | [], _, one, two, _ => rfl
  | (name, node) :: members, same, one, two, alike => by
    rw [memberPaths, List.forall_mem_append] at same
    rw [renderMembers, renderMembers, render_same reflexive node same.1 one two alike,
      render_members_same reflexive members same.2 one two alike]

theorem render_items_same (reflexive : ∀ v, Alike v v) : (items : List (Template π)) →
    (∀ path ∈ itemPaths items, SameInBoth language first second Alike path) →
    ∀ one two, Alike one two →
      renderItems language first one items = renderItems language second two items
  | [], _, one, two, _ => rfl
  | item :: items, same, one, two, alike => by
    rw [itemPaths, List.forall_mem_append] at same
    rw [renderItems, renderItems, render_same reflexive item same.1 one two alike,
      render_items_same reflexive items same.2 one two alike]

end

theorem render_root_free {template : Template π} (free : ∀ path ∈ template.paths, ∀ current,
      language.evaluate first current path = language.evaluate second current path)
    (current : Value) :
    render language first current template = render language second current template := by
  have each (path : π) (member : path ∈ template.paths) :
      SameInBoth language first second Eq path := by
    rintro one _ rfl
    exact free path member one
  exact render_same Eq.refl template each current current rfl

theorem render_current_free {root : Value} {template : Template π}
    (free : ∀ path ∈ template.paths, ∀ one two,
      language.evaluate root one path = language.evaluate root two path) (one two : Value) :
    render language root one template = render language root two template :=
  have same (path : π) (member : path ∈ template.paths) :
      SameInBoth language root root (fun _ _ => True) path :=
    fun one two _ => free path member one two
  render_same (fun _ => trivial) template same one two trivial

/-- A run does not depend on a document that none of the paths reads: the root document, or with
dotted paths from the root the current one. In any language of paths a document on which no path
depends plays no part. -/
theorem render_independent_of_unread_documents :
    (∀ template : Template (List String), (∀ path ∈ template.paths, ¬ StartsAtRoot path) →
      ∀ first second current, template.render Path.Dotted.language first current =
        template.render Path.Dotted.language second current) ∧
    (∀ template : Template Query, (∀ query ∈ template.paths, query.readsRoot = false) →
      ∀ first second current, template.render Query.language first current =
        template.render Query.language second current) ∧
    (∀ template : Template (List String), (∀ path ∈ template.paths, StartsAtRoot path) →
      ∀ root one two, template.render Path.Dotted.language root one =
        template.render Path.Dotted.language root two) ∧
    ∀ (π : Type) (language : PathLanguage π) (template : Template π),
      (∀ first second, (∀ path ∈ template.paths, ∀ current,
          language.evaluate first current path = language.evaluate second current path) →
        ∀ current, template.render language first current =
          template.render language second current) ∧
      ∀ root, (∀ path ∈ template.paths, ∀ one two,
          language.evaluate root one path = language.evaluate root two path) →
        ∀ one two, template.render language root one = template.render language root two := by
  refine ⟨?_, ?_, ?_, fun π language template => ⟨fun _ _ => render_root_free,
    fun _ => render_current_free⟩⟩
  · intro template free first second current
    refine render_root_free (fun path member document => ?_) current
    have unread := free path member
    exact (Path.Dotted.evaluate_from_current unread first document).trans
      (Path.Dotted.evaluate_from_current unread second document).symm
  · intro template free first second current
    refine render_root_free (fun query member document => ?_) current
    exact Query.language_root_free (free query member) document
  · intro template marked root one two
    refine render_current_free (fun path member left right => ?_) one two
    have start := marked path member
    exact (Path.Dotted.evaluate_from_root start root left).trans
      (Path.Dotted.evaluate_from_root start root right).symm

/-- The items of `xs` that have an `a`, if the document has no `b`. -/
def itemsWithName : Query :=
  .path [.child [.name "xs"], .child [.filter (.and (.query .item [.child [.name "a"]])
    (.not (.query .current [.child [.name "b"]])))]]

def currentOnly : PathLanguage String := ⟨.ok, fun _ current _ => .ok [current], id⟩

def rootOnly : PathLanguage String := ⟨.ok, fun root _ _ => .ok [root], id⟩

theorem render_independent_of_unread_documents_of_section :
    render Path.Dotted.language (.string "other") (.object [(.string "xs", .array [.string "b"])])
        (.sectionOf ["xs"] (.raw [])) = .ok (.array [.string "b"]) ∧
    render Query.language (.string "other")
        (.object [(.string "xs", .array [.object [(.string "a", .null)], .string "a"])])
        (.raw itemsWithName) = .ok (.object [(.string "a", .null)]) ∧
    render Path.Dotted.language (.object [(.string "xs", .array [.string "b"])]) (.string "other")
        (.sectionOf ["^", "xs"] (.raw ["^", "xs", "*"])) = .ok (.array [.string "b"]) ∧
    render currentOnly (.string "other") (.array [.null]) (.sectionOf "p" (.raw "q")) =
      .ok (.array [.null]) ∧
    render rootOnly (.array [.null]) (.string "other") (.sectionOf "p" (.raw "q")) =
      .ok (.array [.array [.null]]) := by
  obtain ⟨dotted, queries, marked, any⟩ := render_independent_of_unread_documents
  refine ⟨?_, ?_, ?_, ?_, ?_⟩
  · refine (dotted _ ?_ _ .null _).trans ?_
    · simp [paths, StartsAtRoot]
    · rfl
  · refine (queries _ ?_ _ .null _).trans ?_
    · simp [paths, itemsWithName]
      rfl
    · rfl
  · refine (marked _ ?_ _ _ .null).trans ?_
    · simp [paths, StartsAtRoot]
    · rfl
  · refine ((any _ currentOnly _).1 _ .null ?_ _).trans ?_
    · exact fun _ _ _ => rfl
    · rfl
  · refine ((any _ rootOnly _).2 _ ?_ _ .null).trans ?_
    · exact fun _ _ _ _ => rfl
    · rfl

end Template
end Stencil
