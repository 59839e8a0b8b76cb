import Mathlib.Data.List.Nodup
import Stencil.Value.Basic

/-!
The parts of values: what a value contains at any depth, values all of whose numbers are finite, and
the members of an object whose keys are made distinct.
-/
namespace Stencil

namespace Value

/-- A value contains itself, what its items and the values of its members contain, and the
characters of a string. -/
inductive Contains : Value → Value → Prop where
  | self (v : Value) : Contains v v
  | item {items : List Value} {item v : Value} (listed : item ∈ items) (below : Contains item v) :
      Contains (.array items) v
  | member {members : List (Scalar × Value)} {member : Scalar × Value} {v : Value}
      (listed : member ∈ members) (below : Contains member.2 v) : Contains (.object members) v
  | character {s : String} {c : Char} (listed : c ∈ s.toList) :
      Contains (.string s) (.string (String.ofList [c]))

theorem Contains.trans {u v w : Value} (outer : u.Contains v) (inner : v.Contains w) :
    u.Contains w := by
  induction outer with
  | self v => exact inner
  | item listed below ih => exact .item listed (ih inner)
  | member listed below ih => exact .member listed (ih inner)
  | @character s c listed =>
    generalize one : String.ofList [c] = t at inner
    cases inner with
    | self v => exact one ▸ .character listed
    | @character t d within =>
      rw [← one, String.toList_ofList, List.mem_singleton] at within
      exact within ▸ .character listed

end Value

def Scalar.isFinite : Scalar → Bool
  | .float x => x.isFinite
  | _ => true

/-- No number in the value is infinite or no number, keys included. -/
inductive Value.AllFinite : Value → Prop where
  | scalar {s : Scalar} (finite : s.isFinite) : AllFinite (.scalar s)
  | array {items : List Value} (each : ∀ item ∈ items, AllFinite item) : AllFinite (.array items)
  | object {members : List (Scalar × Value)} (keys : ∀ member ∈ members, member.1.isFinite)
      (each : ∀ member ∈ members, AllFinite member.2) : AllFinite (.object members)

theorem Value.AllFinite.part {v w : Value} (finite : v.AllFinite) (part : v.Contains w) :
    w.AllFinite := by
  induction part with
  | self v => exact finite
  | item listed below ih =>
    cases finite with
    | array each => exact ih (each _ listed)
  | member listed below ih =>
    cases finite with
    | object keys each => exact ih (each _ listed)
  | character listed => exact .scalar rfl

section Members

variable {κ α : Type}

theorem put_member_nodup [BEq κ] [LawfulBEq κ] {key : κ} {value : α} {members : List (κ × α)}
    (distinct : (members.map Prod.fst).Nodup) :
    ((putMember (· == ·) key value members).map Prod.fst).Nodup ∧
      ∀ k ∈ (putMember (· == ·) key value members).map Prod.fst,
        k = key ∨ k ∈ members.map Prod.fst := by
  induction members with
  | nil => simp [putMember]
  | cons member members ih =>
    obtain ⟨k, v⟩ := member
    rw [List.map_cons, List.nodup_cons] at distinct
    obtain ⟨apart, others⟩ := ih distinct.2
    by_cases here : k = key
    · simp only [putMember, here, beq_self_eq_true, if_true, List.map_cons, List.nodup_cons]
      exact ⟨here ▸ distinct, fun _ => .inr⟩
    · simp only [putMember, beq_iff_eq, here, if_false, List.map_cons, List.nodup_cons]
      refine ⟨⟨fun listed => ?_, apart⟩, fun other listed => ?_⟩
      · rcases others k listed with same | before
        · exact here same
        · exact distinct.1 before
      · rcases List.mem_cons.mp listed with rfl | later
        · exact .inr (List.mem_cons_self ..)
        · exact (others other later).imp_right (List.mem_cons_of_mem _)

theorem merge_members_nodup [BEq κ] [LawfulBEq κ] (members : List (κ × α)) :
    ((mergeMembers (· == ·) members).map Prod.fst).Nodup :=
  List.foldlRecOn (motive := fun merged : List (κ × α) => (merged.map Prod.fst).Nodup) members _
    List.nodup_nil fun _ distinct _ _ => (put_member_nodup distinct).1

theorem put_member_values {same : κ → κ → Bool} {key : κ} {value : α} {members : List (κ × α)}
    {member : κ × α} (listed : member ∈ putMember same key value members) :
    member ∈ members ∨ member.2 = value := by
  induction members with
  | nil =>
    obtain rfl := List.mem_singleton.mp listed
    exact .inr rfl
  | cons first members ih =>
    unfold putMember at listed
    split at listed
    · rcases List.mem_cons.mp listed with rfl | later
      · exact .inr rfl
      · exact .inl (List.mem_cons_of_mem _ later)
    · rcases List.mem_cons.mp listed with rfl | later
      · exact .inl (List.mem_cons_self ..)
      · exact (ih later).imp_left (List.mem_cons_of_mem _)

theorem merge_members_values (same : κ → κ → Bool) (members : List (κ × α)) :
    ∀ member ∈ mergeMembers same members, ∃ given ∈ members, given.2 = member.2 := by
  refine List.foldlRecOn (motive := fun merged : List (κ × α) =>
    ∀ member ∈ merged, ∃ given ∈ members, given.2 = member.2) members _ (by simp)
    fun merged each written there member listed => ?_
  rcases put_member_values listed with before | here
  · exact each member before
  · exact ⟨written, there, here.symm⟩

end Members
end Stencil
