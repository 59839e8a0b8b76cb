import Mathlib.Data.List.Induction
import Stencil.Proofs.Value.Parts

/-!
Members that are merged: their keys are the given ones in the order in which they came first, and
each key carries what came with it last.
-/
namespace Stencil

variable {κ α : Type}

theorem merge_members_snoc (same : κ → κ → Bool) (members : List (κ × α)) (member : κ × α) :
    mergeMembers same (members ++ [member]) =
      putMember same member.1 member.2 (mergeMembers same members) := by
  rw [mergeMembers, mergeMembers, List.foldl_append]
  rfl

variable [BEq κ] [LawfulBEq κ]

theorem merge_members_of_nodup {members : List (κ × α)}
    (distinct : (members.map Prod.fst).Nodup) : mergeMembers (· == ·) members = members := by
  have apart : members.Pairwise fun a b => (a.1 == b.1) = false := by
    simpa [List.Nodup, List.pairwise_map] using distinct
  exact merge_members_of_pairwise apart

theorem put_member_present {key : κ} {value : α} {members : List (κ × α)}
    (present : key ∈ members.map Prod.fst) :
    (putMember (· == ·) key value members).map Prod.fst = members.map Prod.fst := by
  induction members with
  | nil => contradiction
  | cons member members ih =>
    by_cases here : member.1 = key
    · simp [putMember, here]
    · have later : key ∈ members.map Prod.fst :=
        (List.mem_cons.mp present).resolve_left fun same => here same.symm
      simp [putMember, here, ih later]

theorem put_member_absent {key : κ} {value : α} {members : List (κ × α)}
    (absent : key ∉ members.map Prod.fst) :
    (putMember (· == ·) key value members).map Prod.fst = members.map Prod.fst ++ [key] := by
  rw [put_member_of_not_mem, List.map_append]
  · rfl
  · intro member listed
    rw [beq_eq_false_iff_ne]
    intro same
    exact absent (same ▸ List.mem_map_of_mem listed)

theorem merge_members_keys (members : List (κ × α)) :
    (mergeMembers (· == ·) members).map Prod.fst = (members.map Prod.fst).eraseDups := by
  induction members using List.reverseRecOn with
  | nil => rfl
  | append_singleton members member ih =>
    rw [merge_members_snoc, List.map_append, List.eraseDups_append, ← ih, List.map_singleton]
    by_cases present : member.1 ∈ members.map Prod.fst
    · have kept : member.1 ∈ (mergeMembers (· == ·) members).map Prod.fst := by
        rw [ih]
        exact List.mem_eraseDups.mpr present
      rw [put_member_present kept]
      simp [List.removeAll, present]
    · have absent : member.1 ∉ (mergeMembers (· == ·) members).map Prod.fst := by
        rw [ih]
        exact fun listed => present (List.mem_eraseDups.mp listed)
      rw [put_member_absent absent]
      simp [List.removeAll, present, List.eraseDups_cons]

theorem mem_put_member {key : κ} {value : α} {members : List (κ × α)} {member : κ × α}
    (distinct : (members.map Prod.fst).Nodup)
    (listed : member ∈ putMember (· == ·) key value members) :
    member = (key, value) ∨ member.1 ≠ key ∧ member ∈ members := by
  induction members with
  | nil => exact .inl (List.mem_singleton.mp listed)
  | cons first members ih =>
    obtain ⟨k, v⟩ := first
    rw [List.map_cons, List.nodup_cons] at distinct
    by_cases here : k = key
    · simp only [putMember, here, beq_self_eq_true, if_true, List.mem_cons] at listed
      rcases listed with same | later
      · exact .inl same
      · right
        refine ⟨?_, List.mem_cons_of_mem _ later⟩
        intro same
        have again : member.1 ∈ members.map Prod.fst := List.mem_map_of_mem later
        rw [here, ← same] at distinct
        exact distinct.1 again
    · simp only [putMember, beq_iff_eq, here, if_false, List.mem_cons] at listed
      rcases listed with same | later
      · subst same
        exact .inr ⟨here, List.mem_cons_self ..⟩
      · rcases ih distinct.2 later with same | ⟨other, before⟩
        · exact .inl same
        · exact .inr ⟨other, List.mem_cons_of_mem _ before⟩

theorem merge_members_last {members : List (κ × α)} {member : κ × α}
    (listed : member ∈ mergeMembers (· == ·) members) :
    ∃ before after, members = before ++ member :: after ∧ ∀ later ∈ after, later.1 ≠ member.1 := by
  induction members using List.reverseRecOn with
  | nil => contradiction
  | append_singleton members given ih =>
    rw [merge_members_snoc] at listed
    rcases mem_put_member (merge_members_nodup members) listed with rfl | ⟨other, before⟩
    · exact ⟨members, [], rfl, by simp⟩
    · obtain ⟨front, after, split, last⟩ := ih before
      refine ⟨front, after ++ [given], by simp [split], ?_⟩
      intro later there
      rcases List.mem_append.mp there with inside | here
      · exact last later inside
      · obtain rfl := List.mem_singleton.mp here
        exact fun same => other same.symm

end Stencil
