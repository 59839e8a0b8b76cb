import Stencil.Proofs.Path.Finding
import Stencil.Proofs.Template.Escape
import Stencil.Proofs.Template.Interpreter
import Stencil.Proofs.Template.Mirror
import Stencil.Proofs.Template.Steps

/-!
What renders is valid JSON: all numbers in it are finite and the keys of each object are distinct
strings, if this holds of the document and the numbers of the template are finite. The values of a
result are literals of the template, parts of the document, scalars that were unquoted, text, and
arrays and objects of these.
-/
namespace Stencil.Template

open Value (AllFinite Contains)

variable {π : Type} {language : PathLanguage π}

structure IsValid (v : Value) : Prop where
  finite : v.AllFinite
  json : IsJson v

theorem valid_scalar {s : Scalar} (finite : s.isFinite) : IsValid (.scalar s) :=
  ⟨.scalar finite, .scalar s⟩

theorem valid_array {items : List Value} (each : ∀ item ∈ items, IsValid item) :
    IsValid (.array items) :=
  ⟨.array fun item listed => (each item listed).finite,
    .array fun item listed => (each item listed).json⟩

theorem valid_object_of {members : List (String × Value)}
    (each : ∀ member ∈ members, IsValid member.2) : IsValid (objectOf members) := by
  have merged : ∀ member ∈ mergeMembers (· == ·) members, IsValid member.2 := by
    intro member listed
    obtain ⟨given, there, same⟩ := merge_members_values _ members member listed
    exact same ▸ each given there
  refine ⟨.object ?_ ?_, .object (merge_members_nodup members) ?_⟩
  · intro member listed
    obtain ⟨named, _, rfl⟩ := List.mem_map.mp listed
    rfl
  · intro member listed
    obtain ⟨named, there, rfl⟩ := List.mem_map.mp listed
    exact (merged named there).finite
  · exact fun member listed => (merged member listed).json

theorem IsValid.part {v w : Value} (valid : IsValid v) (part : v.Contains w) : IsValid w := by
  refine ⟨valid.finite.part part, ?_⟩
  have json := valid.json
  clear valid
  induction part with
  | self v => exact json
  | item listed below ih =>
    cases json with
    | array each => exact ih (each _ listed)
  | member listed below ih =>
    cases json with
    | object distinct each =>
      obtain ⟨member, there, rfl⟩ := List.mem_map.mp listed
      exact ih (each member there)
  | character listed => exact .scalar _

theorem literals_finite {source : Value} {template : Template π} (finite : source.AllFinite)
    (compiled : ofValue language source = .ok template) {s : Scalar}
    (member : .literal s ∈ template.nodes) : s.isFinite := by
  obtain ⟨part, inside, same⟩ :=
    nodes_mirror language source (compiled_mirrors language source compiled) _ member
  cases same with
  | scalar plain =>
    cases finite.part inside with
    | scalar finite => exact finite
  | literal means => rfl

section Rendering

variable (parts : language.FindsParts) {root : Value} (whole : IsValid root)
include parts whole

theorem evaluated_valid {current : Value} {path : π} {found : List Value} (valid : IsValid current)
    (evaluated : language.evaluate root current path = .ok found) : ∀ v ∈ found, IsValid v := by
  intro v member
  rcases parts root current path found evaluated v member with inside | inside
  · exact whole.part inside
  · exact valid.part inside

theorem find_one_valid {current v : Value} {path : π} (valid : IsValid current)
    (done : findOne language root current path = .ok v) : IsValid v :=
  evaluated_valid parts whole valid (find_one_ok language root done) v (List.mem_singleton_self v)

end Rendering

theorem unquote_value_valid {path : π} {v w : Value} (valid : IsValid v)
    (done : unquoteValue path v = .ok w) : IsValid w := by
  unfold unquoteValue at done
  split at done
  · split at done <;> cases done
    rename_i read
    exact valid_scalar (unquote_plain read).1
  · cases done
    exact valid

theorem section_documents_valid {current : Value} {path : π} {found documents : List Value}
    (valid : IsValid current) (each : ∀ v ∈ found, IsValid v)
    (done : sectionDocuments path current found = .ok documents) :
    ∀ document ∈ documents, IsValid document := by
  unfold sectionDocuments at done
  split at done <;> cases done
  · exact fun document only => List.mem_singleton.mp only ▸ valid
  · simp
  · intro item listed
    exact (each _ (List.mem_singleton_self _)).part (.item listed (.self item))
  · exact each

mutual

theorem render_valid (parts : language.FindsParts) {root : Value} (whole : IsValid root) :
    (template : Template π) →
    (∀ s, .literal s ∈ template.nodes → s.isFinite) → {current v : Value} → IsValid current →
    render language root current template = .ok v → IsValid v
  | .literal s, finite, current, v, valid, done => by
    cases done
    exact valid_scalar (finite s (List.mem_singleton_self _))
  | .interpolation tokens, finite, current, v, valid, done => by
    rw [render] at done
    obtain ⟨texts, _, finish⟩ := bind_ok done
    cases finish
    exact valid_scalar rfl
  | .raw path, finite, current, v, valid, done => find_one_valid parts whole valid done
  | .unquote path, finite, current, v, valid, done => by
    rw [render] at done
    obtain ⟨found, one, read⟩ := bind_ok done
    exact unquote_value_valid (find_one_valid parts whole valid one) read
  | .sectionOf path body, finite, current, v, valid, done => by
    rw [render] at done
    obtain ⟨found, all, rest⟩ := bind_ok done
    obtain ⟨documents, entered, rest⟩ := bind_ok rest
    obtain ⟨results, rendered, finish⟩ := bind_ok rest
    cases finish
    have each := section_documents_valid valid
      (evaluated_valid parts whole valid (find_all_ok language root all)) entered
    refine valid_array fun result listed => ?_
    obtain ⟨document, there, done⟩ := mapM_ok rendered result listed
    exact render_valid parts whole body (fun s inside => finite s (List.mem_cons_of_mem _ inside))
      (each document there) done
  | .object members, finite, current, v, valid, done => by
    rw [render] at done
    obtain ⟨results, rendered, finish⟩ := bind_ok done
    cases finish
    exact valid_object_of (render_members_valid parts whole members
      (fun s inside => finite s (List.mem_cons_of_mem _ inside)) valid rendered)
  | .array items, finite, current, v, valid, done => by
    rw [render] at done
    obtain ⟨results, rendered, finish⟩ := bind_ok done
    cases finish
    exact valid_array (render_items_valid parts whole items
      (fun s inside => finite s (List.mem_cons_of_mem _ inside)) valid rendered)

theorem render_members_valid (parts : language.FindsParts) {root : Value} (whole : IsValid root) :
    (members : List (String × Template π)) →
    (∀ s, .literal s ∈ memberNodes members → s.isFinite) → {current : Value} →
    {results : List (String × Value)} → IsValid current →
    renderMembers language root current members = .ok results →
    ∀ result ∈ results, IsValid result.2
  | [], finite, current, results, valid, done => by
    cases done
    simp
  | (name, node) :: members, finite, current, results, valid, done => by
    rw [renderMembers] at done
    obtain ⟨v, first, rest⟩ := bind_ok done
    obtain ⟨others, more, finish⟩ := bind_ok rest
    cases finish
    intro result listed
    rcases List.mem_cons.mp listed with rfl | later
    · exact render_valid parts whole node
        (fun s inside => finite s (List.mem_append_left _ inside)) valid first
    · exact render_members_valid parts whole members
        (fun s inside => finite s (List.mem_append_right _ inside)) valid more result later

theorem render_items_valid (parts : language.FindsParts) {root : Value} (whole : IsValid root) :
    (items : List (Template π)) →
    (∀ s, .literal s ∈ itemNodes items → s.isFinite) → {current : Value} →
    {results : List Value} → IsValid current →
    renderItems language root current items = .ok results → ∀ result ∈ results, IsValid result
  | [], finite, current, results, valid, done => by
    cases done
    simp
  | item :: items, finite, current, results, valid, done => by
    rw [renderItems] at done
    obtain ⟨v, first, rest⟩ := bind_ok done
    obtain ⟨others, more, finish⟩ := bind_ok rest
    cases finish
    intro result listed
    rcases List.mem_cons.mp listed with rfl | later
    · exact render_valid parts whole item
        (fun s inside => finite s (List.mem_append_left _ inside)) valid first
    · exact render_items_valid parts whole items
        (fun s inside => finite s (List.mem_append_right _ inside)) valid more result later

end

def RendersValid (language : PathLanguage π) (source document : Value) : Prop :=
  ∀ template v, ofValue language source = .ok template →
    template.renderDocument language document = .ok v → IsValid v

theorem renders_valid (parts : language.FindsParts) {source document : Value}
    (finite : source.AllFinite) (valid : IsValid document) :
    RendersValid language source document := by
  intro template v compiled done
  exact render_valid parts valid template (fun s => literals_finite finite compiled) valid done

/-- Templates with finite numbers render valid documents to valid values: with dotted paths, with
queries, and with all paths that find nothing but parts of the documents. -/
theorem rendered_value_is_valid {source document : Value} (finite : source.AllFinite)
    (valid : IsValid document) :
    RendersValid Path.Dotted.language source document ∧
    RendersValid Query.language source document ∧
    ∀ (π : Type) (language : PathLanguage π), language.FindsParts →
      RendersValid language source document :=
  ⟨renders_valid Path.Dotted.language_finds_parts finite valid,
    renders_valid Query.language_finds_parts finite valid,
    fun _ _ parts => renders_valid parts finite valid⟩

def twinKeys : Value :=
  .object [(.string "a \x7b\x7b&", .null),
    (.string "a \\\x7b\x7b&", .string "\x7b\x7b&n\x7d\x7d")]

theorem member_names_find_parts : memberNames.FindsParts := by
  intro root current name found evaluated v member
  cases evaluated
  exact .inr (Value.contains_member (Option.mem_toList.mp member))

theorem rendered_value_is_valid_of_twin_keys :
    twinKeys.AllFinite ∧ IsValid (.object (named [("n", .string "007")])) ∧
    memberNames.FindsParts ∧
    ofValue memberNames twinKeys =
      .ok (.object [("a \x7b\x7b&", .literal .null), ("a \x7b\x7b&", .unquote "n")]) ∧
    IsValid (.object [(.string "a \x7b\x7b&", .int 7)]) := by
  have finite : twinKeys.AllFinite := by
    apply AllFinite.object
    · simp [Scalar.isFinite]
    · simp only [List.forall_mem_cons, List.not_mem_nil, false_implies, implies_true, and_true]
      exact ⟨.scalar rfl, .scalar rfl⟩
  have valid : IsValid (.object (named [("n", .string "007")])) :=
    ⟨.object (by simp [named, Scalar.isFinite]) (by simpa [named] using .scalar rfl),
      .object (by simp) (by simpa using .scalar _)⟩
  have compiles : ofValue memberNames twinKeys =
      .ok (.object [("a \x7b\x7b&", .literal .null), ("a \x7b\x7b&", .unquote "n")]) := by cbv
  obtain ⟨_, _, others⟩ := rendered_value_is_valid finite valid
  exact ⟨finite, valid, member_names_find_parts, compiles,
    others _ memberNames member_names_find_parts _ _ compiles rfl⟩

end Stencil.Template
