import Stencil.Path.Dotted
import Stencil.Proofs.Outcome
import Stencil.Proofs.Query.Scope
import Stencil.Proofs.Value.Parts

/-!
What paths find. Dotted paths and queries make no values of their own: all that they find is
contained in the document that they start from.
-/
namespace Stencil

/-- All values that a path finds are parts of a document. -/
def PathLanguage.FindsParts {π : Type} (language : PathLanguage π) : Prop :=
  ∀ root current path found, language.evaluate root current path = .ok found →
    ∀ v ∈ found, root.Contains v ∨ current.Contains v

theorem Value.contains_member {v w : Value} {key : String} (found : v.member? key = some w) :
    v.Contains w := by
  unfold Value.member? at found
  split at found
  · obtain ⟨member, present, rfl⟩ := Option.map_eq_some_iff.mp found
    exact .member (List.mem_of_find?_eq_some present) (.self _)
  · contradiction

namespace Path.Dotted

theorem children_contained {segment : String} {v w : Value} (found : w ∈ children segment v) :
    v.Contains w := by
  unfold children at found
  split at found
  · split at found
    · exact .item found (.self w)
    · contradiction
  · exact Value.contains_member (Option.mem_toList.mp found)

theorem walk_contained {document : Value} {segments : List String} {nodes found : List Value}
    (walked : walk segments nodes = .ok found) (parts : ∀ v ∈ nodes, document.Contains v) :
    ∀ v ∈ found, document.Contains v := by
  induction segments generalizing nodes with
  | nil =>
    cases walked
    exact parts
  | cons segment segments ih =>
    rw [walk] at walked
    split at walked
    · contradiction
    · refine ih walked fun w below => ?_
      obtain ⟨v, above, child⟩ := List.mem_flatMap.mp below
      exact (parts v above).trans (children_contained child)

theorem language_finds_parts : language.FindsParts := by
  intro root current path found evaluated v member
  have alone (document : Value) : ∀ w ∈ [document], document.Contains w := by
    intro w only
    exact List.mem_singleton.mp only ▸ .self w
  simp only [language] at evaluated
  unfold evaluate at evaluated
  split at evaluated
  · exact .inl (walk_contained evaluated (alone root) v member)
  · exact .inr (walk_contained evaluated (alone current) v member)

end Path.Dotted

namespace Query

theorem items_contained {v w : Value} (listed : w ∈ itemsOf v) : v.Contains w := by
  cases v with
  | scalar s => contradiction
  | array items => exact .item listed (.self w)
  | object members =>
    obtain ⟨member, there, rfl⟩ := List.mem_map.mp listed
    exact .member there (.self _)

mutual

theorem nested_contained : (v : Value) → {level : Nat} → {found : List Value} →
    nested level v = .ok found → ∀ w ∈ found, v.Contains w
  | .scalar s, level, found, visited => by
    rw [nested] at visited
    split at visited <;> cases visited
    intro w member
    exact List.mem_singleton.mp member ▸ .self _
  | .array items, level, found, visited => by
    rw [nested] at visited
    split at visited
    · contradiction
    · obtain ⟨others, below, finish⟩ := bind_ok visited
      cases finish
      intro w member
      rcases List.mem_cons.mp member with rfl | inside
      · exact .self _
      · obtain ⟨item, listed, contains⟩ := nested_items_contained items below w inside
        exact .item listed contains
  | .object members, level, found, visited => by
    rw [nested] at visited
    split at visited
    · contradiction
    · obtain ⟨others, below, finish⟩ := bind_ok visited
      cases finish
      intro w member
      rcases List.mem_cons.mp member with rfl | inside
      · exact .self _
      · obtain ⟨member, listed, contains⟩ := nested_members_contained members below w inside
        exact .member listed contains

theorem nested_items_contained : (items : List Value) → {level : Nat} → {found : List Value} →
    nestedItems level items = .ok found → ∀ w ∈ found, ∃ item ∈ items, item.Contains w
  | [], level, found, visited => by
    cases visited
    simp
  | item :: items, level, found, visited => by
    rw [nestedItems] at visited
    split at visited
    · obtain ⟨below, first, rest⟩ := bind_ok visited
      obtain ⟨others, more, finish⟩ := bind_ok rest
      cases finish
      intro w member
      rcases List.mem_append.mp member with here | later
      · exact ⟨item, List.mem_cons_self .., nested_contained item first w here⟩
      · obtain ⟨other, listed, contains⟩ := nested_items_contained items more w later
        exact ⟨other, List.mem_cons_of_mem _ listed, contains⟩
    · rw [ok_bind] at visited
      obtain ⟨others, more, finish⟩ := bind_ok visited
      cases finish
      intro w later
      obtain ⟨other, listed, contains⟩ := nested_items_contained items more w later
      exact ⟨other, List.mem_cons_of_mem _ listed, contains⟩

theorem nested_members_contained : (members : List (Scalar × Value)) → {level : Nat} →
    {found : List Value} → nestedMembers level members = .ok found →
    ∀ w ∈ found, ∃ member ∈ members, member.2.Contains w
  | [], level, found, visited => by
    cases visited
    simp
  | (key, value) :: members, level, found, visited => by
    rw [nestedMembers] at visited
    split at visited
    · obtain ⟨below, first, rest⟩ := bind_ok visited
      obtain ⟨others, more, finish⟩ := bind_ok rest
      cases finish
      intro w member
      rcases List.mem_append.mp member with here | later
      · exact ⟨(key, value), List.mem_cons_self .., nested_contained value first w here⟩
      · obtain ⟨other, listed, contains⟩ := nested_members_contained members more w later
        exact ⟨other, List.mem_cons_of_mem _ listed, contains⟩
    · rw [ok_bind] at visited
      obtain ⟨others, more, finish⟩ := bind_ok visited
      cases finish
      intro w later
      obtain ⟨other, listed, contains⟩ := nested_members_contained members more w later
      exact ⟨other, List.mem_cons_of_mem _ listed, contains⟩

end

theorem mem_of_item_at {α : Type} {items : List α} {index : Int} {item : α}
    (found : itemAt? items index = some item) : item ∈ items := by
  unfold itemAt? at found
  split at found
  · exact List.mem_of_getElem? found
  · split at found
    · exact List.mem_of_getElem? found
    · contradiction

theorem mem_of_slice {α : Type} {items : List α} {start stop step : Option Int} {item : α}
    (found : item ∈ slice items start stop step) : item ∈ items := by
  obtain ⟨index, _, there⟩ := List.mem_filterMap.mp found
  exact List.mem_of_getElem? there

theorem kept_of_keep {ε α : Type} {test : α → Except ε Bool} {values kept : List α}
    (done : keepM test values = .ok kept) : kept ⊆ values := by
  induction values generalizing kept with
  | nil =>
    cases done
    exact List.Subset.refl _
  | cons v values ih =>
    rw [keepM] at done
    obtain ⟨keep, _, rest⟩ := bind_ok done
    obtain ⟨others, more, finish⟩ := bind_ok rest
    cases finish
    split
    · exact List.cons_subset_cons v (ih more)
    · exact List.subset_cons_of_subset v (ih more)

theorem index_contained {index : Int} {v w : Value} (found : atIndex index v = some w) :
    v.Contains w := by
  unfold atIndex at found
  split at found
  · exact .item (mem_of_item_at found) (.self w)
  · exact Value.contains_member found

theorem slice_contained {start stop step : Option Int} {v w : Value}
    (found : w ∈ sliceOf start stop step v) : v.Contains w := by
  unfold sliceOf at found
  split at found
  · exact .item (mem_of_slice found) (.self w)
  · obtain ⟨c, there, rfl⟩ := List.mem_map.mp found
    exact .character (mem_of_slice there)
  · contradiction

variable {root document : Value}

theorem select_one_contained {selector : Selector} {v : Value} {found : List Value}
    (selected : selectOne root document v selector = .ok found) : ∀ w ∈ found, v.Contains w := by
  intro w member
  cases selector with
  | name s =>
    cases selected
    exact Value.contains_member (Option.mem_toList.mp member)
  | index i =>
    cases selected
    exact index_contained (Option.mem_toList.mp member)
  | slice start stop step =>
    cases selected
    exact slice_contained member
  | wildcard =>
    cases selected
    exact items_contained member
  | filter condition =>
    rw [selectOne] at selected
    exact items_contained (kept_of_keep selected member)

theorem select_each_contained {selectors : List Selector} {v : Value} {found : List Value}
    (selected : selectEach root document v selectors = .ok found) : ∀ w ∈ found, v.Contains w := by
  induction selectors generalizing found with
  | nil =>
    cases selected
    simp
  | cons selector selectors ih =>
    rw [selectEach] at selected
    obtain ⟨here, first, rest⟩ := bind_ok selected
    obtain ⟨others, more, finish⟩ := bind_ok rest
    cases finish
    intro w member
    rcases List.mem_append.mp member with one | later
    · exact select_one_contained first w one
    · exact ih more w later

theorem select_by_contained {segment : Segment} {v : Value} {found : List Value}
    (selected : selectBy root document v segment = .ok found) : ∀ w ∈ found, v.Contains w := by
  cases segment with
  | child selectors => exact select_each_contained selected
  | descendants selectors =>
    rw [selectBy] at selected
    obtain ⟨below, visited, rest⟩ := bind_ok selected
    obtain ⟨lists, each, finish⟩ := bind_ok rest
    cases finish
    intro w member
    obtain ⟨list, listed, inside⟩ := List.mem_flatten.mp member
    obtain ⟨u, reached, done⟩ := mapM_ok each list listed
    exact (nested_contained v visited u reached).trans (select_each_contained done w inside)

theorem select_contained {segments : List Segment} {values found : List Value}
    (selected : select root document values segments = .ok found)
    (parts : ∀ v ∈ values, document.Contains v) : ∀ w ∈ found, document.Contains w := by
  induction segments generalizing values with
  | nil =>
    cases selected
    exact parts
  | cons segment segments ih =>
    rw [select] at selected
    obtain ⟨lists, each, rest⟩ := bind_ok selected
    refine ih rest fun w member => ?_
    obtain ⟨list, listed, inside⟩ := List.mem_flatten.mp member
    obtain ⟨v, above, done⟩ := mapM_ok each list listed
    exact (parts v above).trans (select_by_contained done w inside)

theorem evaluate_contained {query : Query} {found : List Value}
    (evaluated : evaluate root document query = .ok found) :
    ∀ v ∈ found, document.Contains v := by
  have alone : ∀ v ∈ [document], document.Contains v := by
    intro v only
    exact List.mem_singleton.mp only ▸ .self v
  induction query generalizing found with
  | path segments => exact select_contained evaluated alone
  | union left right ih =>
    rw [evaluate] at evaluated
    obtain ⟨first, one, rest⟩ := bind_ok evaluated
    obtain ⟨second, two, finish⟩ := bind_ok rest
    cases finish
    intro v member
    rcases List.mem_append.mp member with here | there
    · exact ih one v here
    · exact select_contained two alone v there
  | intersection left right ih =>
    rw [evaluate] at evaluated
    obtain ⟨first, one, rest⟩ := bind_ok evaluated
    obtain ⟨second, two, finish⟩ := bind_ok rest
    cases finish
    intro v member
    exact ih one v (List.mem_filter.mp member).1

theorem language_finds_parts : language.FindsParts := by
  intro root current query found evaluated v member
  rw [language_evaluate] at evaluated
  split at evaluated <;> cases evaluated
  rename_i done
  exact .inr (evaluate_contained done v member)

end Query
end Stencil
