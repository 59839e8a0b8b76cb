import Mathlib.Data.List.Permutation
import Stencil.Path.Verbatim
import Stencil.Proofs.Marker.Reading
import Stencil.Proofs.Template.Compile
import Stencil.Proofs.Template.Paths
import Stencil.Proofs.Value.Parts

/-!
What compiles mirrors its template. The relation is given node by node, from the grammar of strings
and the path compiler alone, and a template compiles to what mirrors it and to nothing else.
-/
namespace Stencil.Template

open Marker

variable {π : Type} (language : PathLanguage π)

/-- The key is text by the grammar; the name is what it means. -/
def SpellsName (key : Scalar) (name : String) : Prop :=
  ∃ s, key = .string s ∧ Means s (.literal name)

def MarksSection (key : Scalar) (text : String) : Prop :=
  ∃ s, key = .string s ∧ Means s (.whole .sectionOf text)

/-- The template is the value with its strings read and their paths compiled. An object with a
section marker for its only key is a section over the value of that key; every other object keeps
its members as they come, also where two of its keys spell the same name. -/
inductive Mirrors : Value → Template π → Prop where
  | scalar {s : Scalar} (plain : ∀ text, s ≠ .string text) : Mirrors (.scalar s) (.literal s)
  | literal {s text : String} (means : Means s (.literal text)) :
      Mirrors (.scalar (.string s)) (.literal (.string text))
  | interpolation {s : String} {texts : List (Token String)} {tokens : List (Token π)}
      (means : Means s (.interpolation texts))
      (each : List.Forall₂ (Token.Compiles language.compile) texts tokens) :
      Mirrors (.scalar (.string s)) (.interpolation tokens)
  | raw {s text : String} {path : π} (means : Means s (.whole .raw text))
      (compiled : language.compile text = .ok path) : Mirrors (.scalar (.string s)) (.raw path)
  | unquote {s text : String} {path : π} (means : Means s (.whole .unquote text))
      (compiled : language.compile text = .ok path) : Mirrors (.scalar (.string s)) (.unquote path)
  | sectionOf {key : Scalar} {value : Value} {text : String} {path : π} {body : Template π}
      (marker : MarksSection key text) (compiled : language.compile text = .ok path)
      (inner : Mirrors value body) : Mirrors (.object [(key, value)]) (.sectionOf path body)
  | object {members : List (Scalar × Value)} {nodes : List (String × Template π)}
      (names : List.Forall₂ (fun member node => SpellsName member.1 node.1) members nodes)
      (values : List.Forall₂ (fun member node => Mirrors member.2 node.2) members nodes) :
      Mirrors (.object members) (.object nodes)
  | array {items : List Value} {nodes : List (Template π)}
      (each : List.Forall₂ Mirrors items nodes) : Mirrors (.array items) (.array nodes)

theorem key_of_name_iff_spells {key : Scalar} {name : String} :
    keyOf language key = .ok (.name name) ↔ SpellsName key name := by
  constructor
  · intro keyed
    obtain ⟨s, reading, rfl, scanned, ⟨_, rfl, same⟩ | ⟨_, _, other⟩⟩ := key_of_ok language keyed
    · cases same
      obtain ⟨texts, means, same⟩ := scan_iff_means.mp scanned
      rw [literal_compiles same] at means
      exact ⟨s, rfl, means⟩
    · contradiction
  · rintro ⟨s, rfl, means⟩
    have literal : (Reading.literal name).Compiles language.compile (.literal name) := .literal name
    have scanned := scan_iff_means.mpr ⟨_, means, literal⟩
    simp only [keyOf, scanned]

theorem key_of_section_iff_marks {key : Scalar} {path : π} :
    keyOf language key = .ok (.sectionOf path) ↔
      ∃ text, MarksSection key text ∧ language.compile text = .ok path := by
  constructor
  · intro keyed
    obtain ⟨s, reading, rfl, scanned, ⟨_, _, other⟩ | ⟨_, rfl, same⟩⟩ := key_of_ok language keyed
    · contradiction
    · cases same
      obtain ⟨texts, means, same⟩ := scan_iff_means.mp scanned
      cases same with
      | whole _ compiled => exact ⟨_, ⟨s, rfl, means⟩, compiled⟩
  · rintro ⟨text, ⟨s, rfl, means⟩, compiled⟩
    have scanned := scan_iff_means.mpr ⟨_, means, .whole .sectionOf compiled⟩
    simp only [keyOf, scanned]

theorem string_mirrors {s : String} {node : Template π}
    (compiled : ofString language s = .ok node) :
    Mirrors language (.scalar (.string s)) node := by
  cases scanned : scan language.compile s with
  | error fault => simp [ofString, scanned] at compiled
  | ok reading =>
    obtain ⟨texts, means, same⟩ := scan_iff_means.mp scanned
    simp only [ofString, scanned] at compiled
    cases same with
    | literal text =>
      cases compiled
      exact .literal means
    | interpolation each =>
      cases compiled
      exact .interpolation means each
    | whole kind done =>
      cases kind with
      | raw =>
        cases compiled
        exact .raw means done
      | unquote =>
        cases compiled
        exact .unquote means done
      | sectionOf => contradiction
      | switch => contradiction

theorem string_of_mirrors {s : String} {node : Template π}
    (mirrors : Mirrors language (.scalar (.string s)) node) : ofString language s = .ok node := by
  cases mirrors with
  | scalar plain => exact absurd rfl (plain s)
  | @literal s text means =>
    have literal : (Reading.literal text).Compiles language.compile (.literal text) := .literal text
    have scanned := scan_iff_means.mpr ⟨_, means, literal⟩
    simp only [ofString, scanned]
  | interpolation means each =>
    have scanned := scan_iff_means.mpr ⟨_, means, .interpolation each⟩
    simp only [ofString, scanned]
  | raw means compiled =>
    have scanned := scan_iff_means.mpr ⟨_, means, .whole .raw compiled⟩
    simp only [ofString, scanned]
  | unquote means compiled =>
    have scanned := scan_iff_means.mpr ⟨_, means, .whole .unquote compiled⟩
    simp only [ofString, scanned]

mutual

theorem compiled_mirrors : (value : Value) → {node : Template π} →
    ofValue language value = .ok node → Mirrors language value node
  | .scalar s, node, compiled => by
    cases s with
    | string s => exact string_mirrors language compiled
    | _ =>
      cases compiled
      exact .scalar (by simp)
  | .array items, node, compiled => by
    rw [ofValue] at compiled
    obtain ⟨nodes, each, finish⟩ := bind_ok compiled
    cases finish
    exact .array (compiled_items_mirror items each)
  | .object members, node, compiled => by
    rcases of_object_ok language compiled with
      ⟨key, value, path, body, rfl, keyed, inner, rfl⟩ | ⟨nodes, each, rfl⟩
    · obtain ⟨text, marker, done⟩ := (key_of_section_iff_marks language).mp keyed
      exact .sectionOf marker done (compiled_mirrors value inner)
    · obtain ⟨names, values⟩ := compiled_members_mirror members each
      exact .object names values

theorem compiled_items_mirror : (items : List Value) → {nodes : List (Template π)} →
    ofItems language items = .ok nodes → List.Forall₂ (Mirrors language) items nodes
  | [], nodes, compiled => by
    cases compiled
    exact .nil
  | item :: items, nodes, compiled => by
    obtain ⟨node, others, first, more, rfl⟩ := of_items_cons_ok language compiled
    exact .cons (compiled_mirrors item first) (compiled_items_mirror items more)

theorem compiled_members_mirror : (members : List (Scalar × Value)) →
    {nodes : List (String × Template π)} → ofMembers language members = .ok nodes →
    List.Forall₂ (fun member node => SpellsName member.1 node.1) members nodes ∧
      List.Forall₂ (fun member node => Mirrors language member.2 node.2) members nodes
  | [], nodes, compiled => by
    cases compiled
    exact ⟨.nil, .nil⟩
  | (key, value) :: members, nodes, compiled => by
    obtain ⟨name, node, others, keyed, first, more, rfl⟩ := of_members_cons_ok language compiled
    obtain ⟨names, values⟩ := compiled_members_mirror members more
    have spells := (key_of_name_iff_spells language).mp keyed
    exact ⟨.cons spells names, .cons (compiled_mirrors value first) values⟩

end

mutual

theorem compiles_of_mirrors : (value : Value) → {node : Template π} →
    Mirrors language value node → ofValue language value = .ok node
  | .scalar s, node, mirrors => by
    cases s with
    | string s => exact string_of_mirrors language mirrors
    | _ =>
      cases mirrors
      rfl
  | .array items, node, mirrors => by
    cases mirrors with
    | array each =>
      rw [ofValue, items_of_mirrors items each]
      rfl
  | .object members, node, mirrors => by
    cases mirrors with
    | @sectionOf key value text path body marker compiled inner =>
      have keyed := (key_of_section_iff_marks language).mpr ⟨text, marker, compiled⟩
      rw [ofValue, compiles_of_mirrors value inner, ok_bind, keyed]
      rfl
    | object names values =>
      exact of_object_of_members language (members_of_mirrors members names values)

theorem items_of_mirrors : (items : List Value) → {nodes : List (Template π)} →
    List.Forall₂ (Mirrors language) items nodes → ofItems language items = .ok nodes
  | [], nodes, each => by
    cases each
    rfl
  | item :: items, nodes, each => by
    cases each with
    | cons first more =>
      rw [ofItems, compiles_of_mirrors item first, items_of_mirrors items more]
      rfl

theorem members_of_mirrors : (members : List (Scalar × Value)) →
    {nodes : List (String × Template π)} →
    List.Forall₂ (fun member node => SpellsName member.1 node.1) members nodes →
    List.Forall₂ (fun member node => Mirrors language member.2 node.2) members nodes →
    ofMembers language members = .ok nodes
  | [], nodes, names, values => by
    cases values
    rfl
  | (key, value) :: members, nodes, names, values => by
    cases names with
    | cons spells names =>
      cases values with
      | cons first values =>
        have keyed := (key_of_name_iff_spells language).mpr spells
        rw [ofMembers, compiles_of_mirrors value first, ok_bind, keyed, ok_bind,
          members_of_mirrors members names values]
        rfl

end

def scalarMarkers : Scalar → List String
  | .string s => markersIn s
  | _ => []

mutual

/-- The path texts of the markers of a template, from left to right, those of a value before those
of its key. -/
def markers : Value → List String
  | .scalar s => scalarMarkers s
  | .array items => itemMarkers items
  | .object members => memberMarkers members

def itemMarkers : List Value → List String
  | [] => []
  | item :: items => markers item ++ itemMarkers items

def memberMarkers : List (Scalar × Value) → List String
  | [] => []
  | (key, value) :: members => markers value ++ scalarMarkers key ++ memberMarkers members

end

theorem name_without_markers {key : Scalar} {name : String} (spells : SpellsName key name) :
    scalarMarkers key = [] := by
  obtain ⟨s, rfl, means⟩ := spells
  exact markers_of_means means

theorem section_marker {key : Scalar} {text : String} (marker : MarksSection key text) :
    scalarMarkers key = [text] := by
  obtain ⟨s, rfl, means⟩ := marker
  exact markers_of_means means

def Compiled (language : PathLanguage π) : List String → List π → Prop :=
  List.Forall₂ fun text path => language.compile text = .ok path

theorem scalar_paths {s : Scalar} {node : Template π}
    (mirrors : Mirrors language (.scalar s) node) :
    Compiled language (scalarMarkers s) node.paths := by
  cases mirrors with
  | scalar plain =>
    cases s with
    | string s => exact absurd rfl (plain s)
    | _ => exact .nil
  | literal means =>
    rw [scalarMarkers, markers_of_means means]
    exact .nil
  | interpolation means each =>
    rw [scalarMarkers, markers_of_means means]
    exact tokens_compile_paths each
  | raw means compiled =>
    rw [scalarMarkers, markers_of_means means]
    exact .cons compiled .nil
  | unquote means compiled =>
    rw [scalarMarkers, markers_of_means means]
    exact .cons compiled .nil

mutual

theorem paths_of_mirrors : (value : Value) → {node : Template π} →
    Mirrors language value node → Compiled language (markers value) node.paths
  | .scalar s, node, mirrors => scalar_paths language mirrors
  | .array items, node, mirrors => by
    cases mirrors with
    | array each => exact paths_of_items items each
  | .object members, node, mirrors => by
    cases mirrors with
    | @sectionOf key value text path body marker compiled inner =>
      have own : Compiled language (scalarMarkers key) [path] := by
        rw [section_marker marker]
        exact .cons compiled .nil
      rw [markers, memberMarkers, memberMarkers, List.append_nil]
      exact List.rel_append (paths_of_mirrors value inner) own
    | object names values => exact paths_of_members members names values

theorem paths_of_items : (items : List Value) → {nodes : List (Template π)} →
    List.Forall₂ (Mirrors language) items nodes →
    Compiled language (itemMarkers items) (itemPaths nodes)
  | [], nodes, each => by
    cases each
    exact .nil
  | item :: items, nodes, each => by
    cases each with
    | cons first more =>
      exact List.rel_append (paths_of_mirrors item first) (paths_of_items items more)

theorem paths_of_members : (members : List (Scalar × Value)) →
    {nodes : List (String × Template π)} →
    List.Forall₂ (fun member node => SpellsName member.1 node.1) members nodes →
    List.Forall₂ (fun member node => Mirrors language member.2 node.2) members nodes →
    Compiled language (memberMarkers members) (memberPaths nodes)
  | [], nodes, names, values => by
    cases values
    exact .nil
  | (key, value) :: members, nodes, names, values => by
    cases names with
    | cons spells names =>
      cases values with
      | cons first values =>
        rw [memberMarkers, name_without_markers spells, List.append_nil]
        exact List.rel_append (paths_of_mirrors value first) (paths_of_members members names values)

end

mutual

theorem nodes_mirror : (value : Value) → {node : Template π} → Mirrors language value node →
    ∀ part ∈ node.nodes, ∃ source, value.Contains source ∧ Mirrors language source part
  | .scalar s, node, mirrors => by
    intro part member
    have leaf : node.nodes = [node] := by cases mirrors <;> rfl
    rw [leaf, List.mem_singleton] at member
    exact ⟨_, .self _, member ▸ mirrors⟩
  | .array items, node, mirrors => by
    intro part member
    cases mirrors with
    | array each =>
      rcases List.mem_cons.mp member with rfl | below
      · exact ⟨_, .self _, .array each⟩
      · obtain ⟨item, listed, source, inside, same⟩ := item_nodes_mirror items each part below
        exact ⟨source, .item listed inside, same⟩
  | .object members, node, mirrors => by
    intro part member
    cases mirrors with
    | @sectionOf key value text path body marker compiled inner =>
      rcases List.mem_cons.mp member with rfl | below
      · exact ⟨_, .self _, .sectionOf marker compiled inner⟩
      · obtain ⟨source, inside, same⟩ := nodes_mirror value inner part below
        exact ⟨source, .member (List.mem_singleton_self _) inside, same⟩
    | object names values =>
      rcases List.mem_cons.mp member with rfl | below
      · exact ⟨_, .self _, .object names values⟩
      · obtain ⟨member, listed, source, inside, same⟩ :=
          member_nodes_mirror members values part below
        exact ⟨source, .member listed inside, same⟩

theorem item_nodes_mirror : (items : List Value) → {nodes : List (Template π)} →
    List.Forall₂ (Mirrors language) items nodes → ∀ part ∈ itemNodes nodes,
      ∃ item ∈ items, ∃ source, item.Contains source ∧ Mirrors language source part
  | [], nodes, each => by
    cases each
    simp [itemNodes]
  | item :: items, nodes, each => by
    intro part member
    cases each with
    | cons first more =>
      rcases List.mem_append.mp member with here | later
      · exact ⟨item, List.mem_cons_self .., nodes_mirror item first part here⟩
      · obtain ⟨other, listed, found⟩ := item_nodes_mirror items more part later
        exact ⟨other, List.mem_cons_of_mem _ listed, found⟩

theorem member_nodes_mirror : (members : List (Scalar × Value)) →
    {nodes : List (String × Template π)} →
    List.Forall₂ (fun member node => Mirrors language member.2 node.2) members nodes →
    ∀ part ∈ memberNodes nodes,
      ∃ member ∈ members, ∃ source, member.2.Contains source ∧ Mirrors language source part
  | [], nodes, values => by
    cases values
    simp [memberNodes]
  | (key, value) :: members, nodes, values => by
    intro part member
    cases values with
    | cons first more =>
      rcases List.mem_append.mp member with here | later
      · exact ⟨(key, value), List.mem_cons_self .., nodes_mirror value first part here⟩
      · obtain ⟨other, listed, found⟩ := member_nodes_mirror members more part later
        exact ⟨other, List.mem_cons_of_mem _ listed, found⟩

end

theorem interpolations_normal {value : Value} {node : Template π}
    (mirrors : Mirrors language value node) {tokens : List (Token π)}
    (member : .interpolation tokens ∈ node.nodes) : Normal tokens := by
  obtain ⟨source, _, same⟩ := nodes_mirror language value mirrors _ member
  cases same with
  | interpolation means each => exact (means_normal means).compiled each

/-- A template compiles to what mirrors it and to nothing else, so the body of a section is what
its value compiles to, and an item of an object or array is what stands in its place compiles to.
All interpolations in what compiles are in normal form, and its paths are those of the markers,
each compiled, one by one. -/
theorem compiled_mirrors_template (template : Value) (compiled : Template π) :
    (ofValue language template = .ok compiled ↔ Mirrors language template compiled) ∧
    (ofValue language template = .ok compiled →
      (∀ tokens, .interpolation tokens ∈ compiled.nodes → Normal tokens) ∧
      List.Forall₂ (fun marker path => language.compile marker = .ok path) (markers template)
        compiled.paths) := by
  refine ⟨⟨compiled_mirrors language template, compiles_of_mirrors language template⟩, ?_⟩
  intro success
  have mirrors := compiled_mirrors language template success
  exact ⟨fun tokens => interpolations_normal language mirrors,
    paths_of_mirrors language template mirrors⟩

/-- A section in an array; both keys of the object under it spell one name. -/
def sectionOverTwins : Value :=
  .array [.object [(.string "\x7b\x7b#xs\x7d\x7d", .object
    [(.string "a \x7b\x7b&", .int 1), (.string "a \\\x7b\x7b&", .string "x\x7b\x7bp\x7d\x7dy")])]]

def sectionOverTwinsCompiled : Template String :=
  .array [.sectionOf "xs" (.object [("a \x7b\x7b&", .literal (.int 1)),
    ("a \x7b\x7b&", .interpolation [.text "x", .path "p", .text "y"])])]

theorem compiled_mirrors_template_of_section :
    ofValue Path.Verbatim.language sectionOverTwins = .ok sectionOverTwinsCompiled ∧
    Mirrors Path.Verbatim.language sectionOverTwins sectionOverTwinsCompiled ∧
    Normal [.text "x", .path "p", .text "y"] ∧
    List.Forall₂ (fun marker path => Path.Verbatim.compile marker = .ok path) ["p", "xs"]
      ["p", "xs"] := by
  have compiles : ofValue Path.Verbatim.language sectionOverTwins =
      .ok sectionOverTwinsCompiled := by cbv
  have listed : markers sectionOverTwins = ["p", "xs"] := by cbv
  have inside : .interpolation [.text "x", .path "p", .text "y"] ∈
      sectionOverTwinsCompiled.nodes := by
    simp [sectionOverTwinsCompiled, nodes, itemNodes, memberNodes]
  obtain ⟨same, rest⟩ :=
    compiled_mirrors_template Path.Verbatim.language sectionOverTwins sectionOverTwinsCompiled
  obtain ⟨normal, paths⟩ := rest compiles
  rw [listed] at paths
  exact ⟨compiles, same.mp compiles, normal _ inside, paths⟩

end Stencil.Template
