import Stencil.Proofs.Template.Order
import Stencil.Proofs.Value.Members

/-!
The keys of what a template builds. An object has the names that the keys of its template spell, in
the order in which they come first, and each carries what is built from the last member of that
name. So no key depends on a document, and two keys spell one name only with an escape in one of
them.
-/
namespace Stencil.Template

open Marker

variable {π : Type}

def LastSpelling (members : List (Scalar × Value)) (name : String) (member : Scalar × Value) :
    Prop :=
  ∃ before after, members = before ++ member :: after ∧ SpellsName member.1 name ∧
    ∀ later ∈ after, ¬ SpellsName later.1 name

theorem LastSpelling.mem {members : List (Scalar × Value)} {name : String}
    {member : Scalar × Value} (last : LastSpelling members name member) : member ∈ members := by
  obtain ⟨before, after, rfl, _⟩ := last
  simp

def SpellNames : List (Scalar × Value) → List String → Prop :=
  List.Forall₂ fun member name => SpellsName member.1 name

/-- At every depth the objects of the value have the keys that the template spells. A section builds
each of its items from its body; what a scalar stands for is not looked into. -/
inductive KeysAsSpelled : Value → Value → Prop where
  | scalar (s : Scalar) (v : Value) : KeysAsSpelled (.scalar s) v
  | array {items results : List Value} (each : List.Forall₂ KeysAsSpelled items results) :
      KeysAsSpelled (.array items) (.array results)
  | sectionOf {key : Scalar} {body : Value} {text : String} {results : List Value}
      (marker : MarksSection key text) (each : ∀ v ∈ results, KeysAsSpelled body v) :
      KeysAsSpelled (.object [(key, body)]) (.array results)
  | object {members last : List (Scalar × Value)} {names : List String}
      {results : List (String × Value)} (spelled : SpellNames members names)
      (keys : results.map Prod.fst = names.eraseDups)
      (sources : List.Forall₂ (fun member result => LastSpelling members result.1 member) last
        results)
      (values : List.Forall₂ (fun member result => KeysAsSpelled member.2 result.2) last results) :
      KeysAsSpelled (.object members) (.object (named results))

def Builds (language : PathLanguage π) (root current source v : Value) : Prop :=
  ∃ template, ofValue language source = .ok template ∧
    render language root current template = .ok v

/-- What an object is built of: each key of the result is spelled by the template and carries what
is built from the last member of that name. -/
structure ObjectAsSpelled (members : List (Scalar × Value)) (names : List String)
    (builds : Value → Value → Prop) (results : List (String × Value)) : Prop where
  spelled : SpellNames members names
  distinct : (results.map Prod.fst).Nodup
  keys : results.map Prod.fst = names.eraseDups
  in_order : names.Nodup → results.map Prod.fst = names
  values : ∀ result ∈ results, ∃ member, LastSpelling members result.1 member ∧
    builds member.2 result.2

theorem spells_name_unique : Relator.RightUnique SpellsName := by
  intro key one two ⟨s, spelled, first⟩ ⟨t, same, second⟩
  cases spelled.symm.trans same
  cases means_unique first second
  rfl

theorem name_no_section {key : Scalar} {name text : String} (spells : SpellsName key name) :
    ¬ MarksSection key text := by
  obtain ⟨s, spelled, means⟩ := spells
  intro ⟨t, same, other⟩
  cases spelled.symm.trans same
  cases means_unique means other

theorem spell_names_unique {members : List (Scalar × Value)} {names others : List String}
    (first : SpellNames members names) (second : SpellNames members others) : names = others := by
  have unique : Relator.RightUnique fun (member : Scalar × Value) name =>
      SpellsName member.1 name := fun _ _ _ => @spells_name_unique _ _ _
  exact unique.forall₂ first second

section Building

variable {language : PathLanguage π} {root current : Value}

theorem builds_array {items : List Value} {v : Value}
    (built : Builds language root current (.array items) v) :
    ∃ results, v = .array results ∧
      List.Forall₂ (Builds language root current) items results := by
  obtain ⟨template, compiled, done⟩ := built
  rw [ofValue, of_items_mapM] at compiled
  obtain ⟨nodes, one, finish⟩ := bind_ok compiled
  cases finish
  rw [render, render_items_mapM] at done
  obtain ⟨results, two, finish⟩ := bind_ok done
  cases finish
  exact ⟨results, rfl, mapM_then one two⟩

theorem builds_section {path : π} {body v : Value} {node : Template π}
    (compiled : ofValue language body = .ok node)
    (done : render language root current (.sectionOf path node) = .ok v) :
    ∃ results, v = .array results ∧
      ∀ result ∈ results, ∃ document, Builds language root document body result := by
  rw [render] at done
  obtain ⟨found, _, rest⟩ := bind_ok done
  obtain ⟨documents, _, more⟩ := bind_ok rest
  obtain ⟨results, each, finish⟩ := bind_ok more
  cases finish
  refine ⟨results, rfl, ?_⟩
  intro result listed
  obtain ⟨document, _, made⟩ := mapM_ok each result listed
  exact ⟨document, node, compiled, made⟩

theorem builds_member {member : Scalar × Value} {result : String × Value}
    (built : ∃ node, memberOf language member = .ok node ∧
      renderMember language root current node = .ok result) :
    SpellsName member.1 result.1 ∧ Builds language root current member.2 result.2 := by
  obtain ⟨node, compiled, done⟩ := built
  obtain ⟨keyed, inner⟩ := (member_of_ok_iff language).mp compiled
  obtain ⟨v, made, finish⟩ := bind_ok done
  cases finish
  exact ⟨(key_of_name_iff_spells language).mp keyed, node.2, inner, made⟩

theorem builds_object {members : List (Scalar × Value)} {v : Value}
    (built : Builds language root current (.object members) v) :
    (∃ key body text results, members = [(key, body)] ∧ MarksSection key text ∧
      v = .array results ∧
      ∀ result ∈ results, ∃ document, Builds language root document body result) ∨
    ∃ given, v = objectOf given ∧ List.Forall₂ (fun member result =>
      SpellsName member.1 result.1 ∧ Builds language root current member.2 result.2)
      members given := by
  obtain ⟨template, compiled, done⟩ := built
  rcases of_object_ok language compiled with ⟨key, body, path, node, rfl, keyed, inner, rfl⟩ |
    ⟨nodes, one, rfl⟩
  · obtain ⟨text, marks, _⟩ := (key_of_section_iff_marks language).mp keyed
    obtain ⟨results, same, each⟩ := builds_section inner done
    exact .inl ⟨key, body, text, results, rfl, marks, same, each⟩
  · rw [render] at done
    obtain ⟨given, two, finish⟩ := bind_ok done
    cases finish
    rw [of_members_mapM] at one
    rw [render_members_mapM] at two
    exact .inr ⟨given, rfl, (mapM_then one two).imp fun _ _ => builds_member⟩

end Building

section Merging

variable {members : List (Scalar × Value)} {given : List (String × Value)}
  {R : Value → Value → Prop}

theorem merged_from_last (pairs : List.Forall₂ (fun member result =>
      SpellsName member.1 result.1 ∧ R member.2 result.2) members given)
    {result : String × Value} (listed : result ∈ mergeMembers (· == ·) given) :
    ∃ member, LastSpelling members result.1 member ∧ R member.2 result.2 := by
  obtain ⟨before, after, rfl, last⟩ := merge_members_last listed
  have behind := List.forall₂_drop_append members before _ pairs
  obtain ⟨member, others, ⟨spells, made⟩, more, split⟩ := List.forall₂_cons_right_iff.mp behind
  refine ⟨member, ⟨members.take before.length, others, ?_, spells, ?_⟩, made⟩
  · rw [← split, List.take_append_drop]
  · intro later there same
    obtain ⟨twin, below, spelled, _⟩ := related_of_mem more.flip there
    exact last twin below (spells_name_unique spelled same)

theorem merged_object_as_spelled (pairs : List.Forall₂ (fun member result =>
      SpellsName member.1 result.1 ∧ R member.2 result.2) members given) :
    ObjectAsSpelled members (given.map Prod.fst) R (mergeMembers (· == ·) given) := by
  constructor
  · exact List.forall₂_map_right_iff.mpr (pairs.imp fun _ _ => And.left)
  · exact merge_members_nodup given
  · exact merge_members_keys given
  · intro distinct
    rw [merge_members_of_nodup distinct]
  · intro result listed
    exact merged_from_last pairs listed

end Merging

section Depth

variable {language : PathLanguage π} {root : Value}

theorem sources_of_each {α β : Type} {R : α → β → Prop} {ys : List β}
    (each : ∀ y ∈ ys, ∃ x, R x y) : ∃ xs, List.Forall₂ R xs ys := by
  induction ys with
  | nil => exact ⟨[], .nil⟩
  | cons y ys ih =>
    obtain ⟨x, first⟩ := each y (List.mem_cons_self ..)
    obtain ⟨xs, more⟩ := ih fun other later => each other (List.mem_cons_of_mem _ later)
    exact ⟨x :: xs, .cons first more⟩

theorem ObjectAsSpelled.keys_as_spelled {members : List (Scalar × Value)} {names : List String}
    {results : List (String × Value)} {R : Value → Value → Prop}
    (built : ObjectAsSpelled members names R results)
    (each : ∀ member ∈ members, ∀ v, R member.2 v → KeysAsSpelled member.2 v) :
    KeysAsSpelled (.object members) (.object (named results)) := by
  obtain ⟨last, pairs⟩ := sources_of_each built.values
  refine .object built.spelled built.keys (pairs.imp fun _ _ => And.left) (pairs.imp ?_)
  intro member result ⟨source, made⟩
  exact each member source.mem result.2 made

mutual

theorem keys_as_spelled : (source : Value) → ∀ current v, Builds language root current source v →
    KeysAsSpelled source v
  | .scalar s, _, v, _ => .scalar s v
  | .array items, current, v, built => by
    obtain ⟨results, rfl, pairs⟩ := builds_array built
    exact .array (item_keys_as_spelled items current pairs)
  | .object members, current, v, built => by
    have each := member_keys_as_spelled members
    rcases builds_object built with ⟨key, body, text, results, rfl, marks, rfl, made⟩ |
      ⟨given, rfl, pairs⟩
    · refine .sectionOf marks ?_
      intro result listed
      obtain ⟨document, inner⟩ := made result listed
      exact each (key, body) (List.mem_singleton_self _) document result inner
    · exact (merged_object_as_spelled pairs).keys_as_spelled fun member listed =>
        each member listed current

theorem item_keys_as_spelled : (items : List Value) → ∀ current {results : List Value},
    List.Forall₂ (Builds language root current) items results →
    List.Forall₂ KeysAsSpelled items results
  | [], _, _, .nil => .nil
  | item :: items, current, _, .cons first more =>
    .cons (keys_as_spelled item current _ first) (item_keys_as_spelled items current more)

theorem member_keys_as_spelled : (members : List (Scalar × Value)) → ∀ member ∈ members,
    ∀ current v, Builds language root current member.2 v → KeysAsSpelled member.2 v
  | [], member, listed => by contradiction
  | (key, value) :: members, member, listed => by
    rcases List.mem_cons.mp listed with rfl | later
    · exact keys_as_spelled value
    · exact member_keys_as_spelled members member later

end

end Depth

def NoSection (key : Scalar) : Prop := ∀ text, ¬ MarksSection key text

theorem object_as_spelled {language : PathLanguage π} {root current v : Value}
    {members : List (Scalar × Value)} (plain : ∀ member ∈ members, NoSection member.1)
    (built : Builds language root current (.object members) v) :
    ∃ names results, v = .object (named results) ∧
      ObjectAsSpelled members names (Builds language root current) results := by
  rcases builds_object built with ⟨key, body, text, _, rfl, marks, _, _⟩ | ⟨given, rfl, pairs⟩
  · exact absurd marks (plain (key, body) (List.mem_singleton_self _) text)
  · exact ⟨_, _, rfl, merged_object_as_spelled pairs⟩

theorem object_names_fixed (members : List (Scalar × Value))
    (plain : ∀ member ∈ members, NoSection member.1) :
    ∃ names, ∀ (π : Type) (language : PathLanguage π) (root current v : Value),
      Builds language root current (.object members) v →
      ∃ results, v = .object (named results) ∧
        ObjectAsSpelled members names (Builds language root current) results := by
  by_cases spelled : ∃ names, SpellNames members names
  · obtain ⟨names, spell⟩ := spelled
    refine ⟨names, ?_⟩
    intro π language root current v built
    obtain ⟨others, results, same, made⟩ := object_as_spelled plain built
    cases spell_names_unique spell made.spelled
    exact ⟨results, same, made⟩
  · refine ⟨[], ?_⟩
    intro π language root current v built
    obtain ⟨names, _, _, made⟩ := object_as_spelled plain built
    exact absurd ⟨names, made.spelled⟩ spelled

theorem same_name_has_escape {s t name : String} (differ : s ≠ t)
    (first : SpellsName (.string s) name) (second : SpellsName (.string t) name) :
    HasEscape s.toList ∨ HasEscape t.toList := by
  obtain ⟨_, same, means⟩ := first
  cases same
  obtain ⟨_, same, other⟩ := second
  cases same
  by_contra! ⟨plain, bare⟩
  exact differ ((literal_without_escape means plain).symm.trans (literal_without_escape other bare))

/-- At every depth, what a template builds has the keys that the template spells. An object without
a section key has, for every engine and all documents, the names that its keys spell, distinct and
in the order in which they come first, each with what is built from its last member; and two keys
spell one name only with an escape in one of them. -/
theorem built_objects_have_spelled_keys :
    (∀ (π : Type) (language : PathLanguage π) (root current source v : Value),
      Builds language root current source v → KeysAsSpelled source v) ∧
    (∀ members : List (Scalar × Value), (∀ member ∈ members, NoSection member.1) →
      ∃ names, ∀ (π : Type) (language : PathLanguage π) (root current v : Value),
        Builds language root current (.object members) v →
        ∃ results, v = .object (named results) ∧
          ObjectAsSpelled members names (Builds language root current) results) ∧
    ∀ s t name : String, s ≠ t → SpellsName (.string s) name → SpellsName (.string t) name →
      HasEscape s.toList ∨ HasEscape t.toList := by
  refine ⟨?_, object_names_fixed, ?_⟩
  · intro π language root current source v built
    exact keys_as_spelled source current v built
  · intro s t name differ first second
    exact same_name_has_escape differ first second

theorem named_injective {α : Type} : Function.Injective (named (α := α)) := by
  apply List.map_injective_iff.mpr
  intro one two same
  cases one
  cases two
  cases same
  rfl

def collidingKeys : List (Scalar × Value) :=
  [(.string "a \x7b\x7b&", .null), (.string "b", .bool true),
    (.string "a \\\x7b\x7b&", .string "\x7b\x7b&n\x7d\x7d")]

theorem colliding_keys_spell :
    SpellsName (.string "a \x7b\x7b&") "a \x7b\x7b&" ∧ SpellsName (.string "b") "b" ∧
      SpellsName (.string "a \\\x7b\x7b&") "a \x7b\x7b&" := by
  refine ⟨?_, ?_, ?_⟩ <;> exact (key_of_name_iff_spells memberNames).mp (by cbv)

theorem built_objects_have_spelled_keys_of_collision :
    ∃ document results, Builds memberNames document document (.object collidingKeys)
        (.object (named results)) ∧
      results = [("a \x7b\x7b&", .int 7), ("b", .bool true)] ∧
      KeysAsSpelled (.object collidingKeys) (.object (named results)) ∧
      (∃ names, ObjectAsSpelled collidingKeys names (Builds memberNames document document)
        results) ∧
      (HasEscape "a \x7b\x7b&".toList ∨ HasEscape "a \\\x7b\x7b&".toList) := by
  obtain ⟨first, second, third⟩ := colliding_keys_spell
  have plain : ∀ member ∈ collidingKeys, NoSection member.1 := by
    simp only [collidingKeys, List.forall_mem_cons, List.not_mem_nil, false_implies, implies_true,
      and_true]
    exact ⟨fun _ => name_no_section first, fun _ => name_no_section second,
      fun _ => name_no_section third⟩
  have compiles : ofValue memberNames (.object collidingKeys) = .ok (.object
      [("a \x7b\x7b&", .literal .null), ("b", .literal (.bool true)),
        ("a \x7b\x7b&", .unquote "n")]) := by cbv
  obtain ⟨depth, objects, collide⟩ := built_objects_have_spelled_keys
  obtain ⟨names, each⟩ := objects collidingKeys plain
  have built : Builds memberNames (.object [(.string "n", .string "007")])
      (.object [(.string "n", .string "007")]) (.object collidingKeys)
      (.object (named [("a \x7b\x7b&", .int 7), ("b", .bool true)])) := ⟨_, compiles, rfl⟩
  obtain ⟨results, same, made⟩ := each _ _ _ _ _ built
  cases named_injective (Value.object.inj same)
  exact ⟨_, _, built, rfl, depth _ _ _ _ _ _ built, ⟨names, made⟩,
    collide _ _ _ (by decide) first third⟩

end Stencil.Template
