import Mathlib.Data.List.Nodup
import Stencil.Proofs.Marker.Escape
import Stencil.Proofs.Template.Compile
import Stencil.Proofs.Template.Paths
import Stencil.Proofs.Value.Members
import Stencil.Template.Render

/-!
Every JSON value can be written as a template. The template has all strings of the value
escaped, keys included; it compiles without a path and renders to the value.
-/
namespace Stencil.Template

open Marker

variable {π : Type}

def escapeScalar : Scalar → Scalar
  | .string s => .string (escapeString s)
  | s => s

mutual

def escapeValue : Value → Value
  | .scalar s => .scalar (escapeScalar s)
  | .array items => .array (escapeItems items)
  | .object members => .object (escapeMembers members)

def escapeItems : List Value → List Value
  | [] => []
  | item :: items => escapeValue item :: escapeItems items

def escapeMembers : List (Scalar × Value) → List (Scalar × Value)
  | [] => []
  | (key, value) :: members => (escapeScalar key, escapeValue value) :: escapeMembers members

end

def named {α : Type} (members : List (String × α)) : List (Scalar × α) :=
  members.map fun (name, value) => (.string name, value)

theorem mem_named {α : Type} {members : List (String × α)} {member : String × α}
    (listed : member ∈ members) : (Scalar.string member.1, member.2) ∈ named members :=
  List.mem_map_of_mem listed

/-- A value whose objects have strings for keys, no two the same. -/
inductive IsJson : Value → Prop where
  | scalar (s : Scalar) : IsJson (.scalar s)
  | array {items : List Value} (each : ∀ item ∈ items, IsJson item) : IsJson (.array items)
  | object {members : List (String × Value)} (distinct : (members.map Prod.fst).Nodup)
      (each : ∀ member ∈ members, IsJson member.2) : IsJson (.object (named members))

/-- Whatever the paths are, the escaped value compiles to the template, which holds none and
renders to the value. -/
structure Spells (value : Value) (template : Template π) : Prop where
  compiles : ∀ language, ofValue language (escapeValue value) = .ok template
  pathless : template.paths = []
  renders : ∀ language root current, render language root current template = .ok value

theorem key_of_escape (language : PathLanguage π) (name : String) :
    keyOf language (escapeScalar (.string name)) = .ok (.name name) := by
  simp only [escapeScalar, keyOf, scan_escape]

theorem scalar_spelled (s : Scalar) : Spells (.scalar s) (.literal s : Template π) := by
  constructor
  · intro language
    cases s with
    | string s => simp only [escapeValue, escapeScalar, ofValue, ofString, scan_escape]
    | _ => rfl
  · rfl
  · intro language root current
    rfl

theorem items_spelled {items : List Value}
    (each : ∀ item ∈ items, ∃ node : Template π, Spells item node) :
    ∃ nodes : List (Template π),
      (∀ language, ofItems language (escapeItems items) = .ok nodes) ∧ itemPaths nodes = [] ∧
        ∀ language root current, renderItems language root current nodes = .ok items := by
  induction items with
  | nil => exact ⟨[], fun _ => rfl, rfl, fun _ _ _ => rfl⟩
  | cons item items ih =>
    obtain ⟨node, first⟩ := each item (by simp)
    obtain ⟨nodes, compiles, pathless, renders⟩ :=
      ih fun other member => each other (by simp [member])
    refine ⟨node :: nodes, ?_, ?_, ?_⟩
    · intro language
      rw [escapeItems, ofItems, first.compiles, compiles]
      rfl
    · rw [itemPaths, first.pathless, pathless]
      rfl
    · intro language root current
      rw [renderItems, first.renders, renders]
      rfl

theorem members_spelled {members : List (String × Value)}
    (each : ∀ member ∈ members, ∃ node : Template π, Spells member.2 node) :
    ∃ nodes : List (String × Template π),
      (∀ language, ofMembers language (escapeMembers (named members)) = .ok nodes) ∧
        memberPaths nodes = [] ∧
        ∀ language root current, renderMembers language root current nodes = .ok members := by
  induction members with
  | nil => exact ⟨[], fun _ => rfl, rfl, fun _ _ _ => rfl⟩
  | cons member members ih =>
    obtain ⟨name, value⟩ := member
    obtain ⟨node, first⟩ := each (name, value) (by simp)
    obtain ⟨nodes, compiles, pathless, renders⟩ :=
      ih fun other member => each other (by simp [member])
    refine ⟨(name, node) :: nodes, ?_, ?_, ?_⟩
    · intro language
      simp only [named, List.map_cons, escapeMembers, ofMembers, first.compiles, key_of_escape,
        ok_bind]
      rw [← named, compiles]
      rfl
    · rw [memberPaths, first.pathless, pathless]
      rfl
    · intro language root current
      rw [renderMembers, first.renders, renders]
      rfl

theorem object_of_distinct {members : List (String × Value)}
    (distinct : (members.map Prod.fst).Nodup) : objectOf members = .object (named members) := by
  rw [objectOf, merge_members_of_nodup distinct]
  rfl

theorem json_spelled {value : Value} (json : IsJson value) :
    ∃ template : Template π, Spells value template := by
  induction json with
  | scalar s => exact ⟨_, scalar_spelled s⟩
  | array each ih =>
    obtain ⟨nodes, compiles, pathless, renders⟩ := items_spelled ih
    refine ⟨.array nodes, ?_, pathless, ?_⟩
    · intro language
      rw [escapeValue, ofValue, compiles]
      rfl
    · intro language root current
      rw [render, renders]
      rfl
  | object distinct each ih =>
    obtain ⟨nodes, compiles, pathless, renders⟩ := members_spelled ih
    refine ⟨.object nodes, ?_, pathless, ?_⟩
    · intro language
      exact of_object_of_members language (compiles language)
    · intro language root current
      rw [render, renders, ← object_of_distinct distinct]
      rfl

theorem escape_items_eq (items : List Value) : escapeItems items = items.map escapeValue := by
  induction items with
  | nil => rfl
  | cons item items ih => rw [escapeItems, ih, List.map_cons]

theorem escape_members_named (members : List (String × Value)) :
    escapeMembers (named members) =
      named (members.map fun (name, value) => (escapeString name, escapeValue value)) := by
  induction members with
  | nil => rfl
  | cons member members ih =>
    simp only [named, List.map_cons, escapeMembers, escapeScalar, List.cons.injEq, true_and]
    exact ih

theorem json_of_escape {value : Value} (json : IsJson value) : IsJson (escapeValue value) := by
  induction json with
  | scalar s => exact .scalar _
  | array each ih =>
    rw [escapeValue, escape_items_eq]
    apply IsJson.array
    intro item member
    obtain ⟨inner, here, rfl⟩ := List.mem_map.mp member
    exact ih inner here
  | @object members distinct each ih =>
    rw [escapeValue, escape_members_named]
    apply IsJson.object
    · have names : (members.map fun member => (escapeString member.1, escapeValue member.2)).map
          Prod.fst = (members.map Prod.fst).map escapeString := by simp
      rw [names]
      exact List.Nodup.map (fun _ _ same => escape_string_injective same) distinct
    · intro member there
      obtain ⟨inner, here, rfl⟩ := List.mem_map.mp there
      exact ih inner here

/-- The escaped value is itself a template of JSON form. It compiles to one template in every
path language, one that refuses all paths included, so no path is compiled; the template holds no
path and renders to the value against every document. A string without two braces in a row is
left as it is. -/
theorem escaped_value_renders_to_value {value : Value} (json : IsJson value) :
    IsJson (escapeValue value) ∧
    (∃ template : Template π,
      (∀ language : PathLanguage π, ofValue language (escapeValue value) = .ok template) ∧
      template.paths = [] ∧
      ∀ (language : PathLanguage π) (document : Value),
        template.renderDocument language document = .ok value) ∧
    ∀ s : String, ¬ ['{', '{'] <:+: s.toList → escapeString s = s := by
  obtain ⟨template, spelled⟩ := json_spelled (π := π) json
  refine ⟨json_of_escape json, ⟨template, spelled.compiles, spelled.pathless, ?_⟩, ?_⟩
  · intro language document
    exact spelled.renders language document document
  · intro s free
    rw [escapeString, escape_of_no_open free, String.ofList_toList]

theorem escaped_value_renders_to_value_of_braces :
    IsJson (.object [(.string "\x7b\x7b#a", .array [.string "\\\x7b\x7b\x7b\x7b", .int 1])]) ∧
    ∃ template : Template String,
      (∀ language, ofValue language (escapeValue
        (.object [(.string "\x7b\x7b#a", .array [.string "\\\x7b\x7b\x7b\x7b", .int 1])])) =
          .ok template) ∧
      ∀ language document, template.renderDocument language document =
        .ok (.object [(.string "\x7b\x7b#a", .array [.string "\\\x7b\x7b\x7b\x7b", .int 1])]) := by
  have json : IsJson (.object (named
      [("\x7b\x7b#a", .array [.string "\\\x7b\x7b\x7b\x7b", .int 1])])) := by
    apply IsJson.object (by simp)
    intro member there
    simp only [List.mem_singleton] at there
    subst there
    apply IsJson.array
    intro item there
    simp only [List.mem_cons, List.not_mem_nil, or_false] at there
    rcases there with rfl | rfl
    · exact .scalar _
    · exact .scalar _
  obtain ⟨_, ⟨template, compiles, _, renders⟩, _⟩ :=
    escaped_value_renders_to_value (π := String) json
  exact ⟨json, template, compiles, renders⟩

end Stencil.Template
