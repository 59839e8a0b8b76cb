import Stencil.Proofs.Outcome
import Stencil.Template.Compile

/-!
What has compiled, taken apart: a template that compiles names the readings of its strings and
the templates of its parts.
-/
namespace Stencil.Template

open Marker

variable {π : Type} (language : PathLanguage π)

theorem key_of_ok {key : Scalar} {read : Key π} (compiled : keyOf language key = .ok read) :
    ∃ s reading, key = .string s ∧ scan language.compile s = .ok reading ∧
      ((∃ text, reading = .literal text ∧ read = .name text) ∨
        ∃ path, reading = .whole .sectionOf path ∧ read = .sectionOf path) := by
  unfold keyOf at compiled
  split at compiled
  · rename_i s
    split at compiled
    · contradiction
    · rename_i text scanned
      cases compiled
      exact ⟨s, _, rfl, scanned, .inl ⟨text, rfl, rfl⟩⟩
    · rename_i path scanned
      cases compiled
      exact ⟨s, _, rfl, scanned, .inr ⟨path, rfl, rfl⟩⟩
    · contradiction
  · contradiction

theorem of_object_several {members : List (Scalar × Value)} (several : members.length ≠ 1) :
    ofValue language (.object members) = return .object (← ofMembers language members) :=
  ofValue.eq_5 language members fun key value single => several (by simp [single])

theorem of_object_ok {members : List (Scalar × Value)} {template : Template π}
    (compiled : ofValue language (.object members) = .ok template) :
    (∃ key value path body, members = [(key, value)] ∧
      keyOf language key = .ok (.sectionOf path) ∧ ofValue language value = .ok body ∧
      template = .sectionOf path body) ∨
    ∃ nodes, ofMembers language members = .ok nodes ∧ template = .object nodes := by
  rcases members with _ | ⟨⟨key, value⟩, _ | ⟨second, others⟩⟩
  · cases compiled
    exact .inr ⟨[], rfl, rfl⟩
  · rw [ofValue] at compiled
    obtain ⟨body, first, rest⟩ := bind_ok compiled
    obtain ⟨read, keyed, finish⟩ := bind_ok rest
    cases read with
    | name text =>
      cases finish
      refine .inr ⟨[(text, body)], ?_, rfl⟩
      simp only [ofMembers, first, keyed, ok_bind]
      rfl
    | sectionOf path =>
      cases finish
      exact .inl ⟨key, value, path, body, rfl, keyed, first, rfl⟩
  · rw [of_object_several language (by simp)] at compiled
    obtain ⟨nodes, first, finish⟩ := bind_ok compiled
    cases finish
    exact .inr ⟨nodes, first, rfl⟩

def memberOf (member : Scalar × Value) : Except CompileFault (String × Template π) := do
  let node ← ofValue language member.2
  match ← keyOf language member.1 with
  | .name text => return (text, node)
  | .sectionOf _ => .error (.sectionNotAlone member.1)

theorem of_members_mapM (members : List (Scalar × Value)) :
    ofMembers language members = members.mapM (memberOf language) := by
  induction members with
  | nil => rfl
  | cons member members ih =>
    rw [ofMembers, List.mapM_cons, ih, memberOf, bind_assoc]
    refine bind_congr fun node => ?_
    rw [bind_assoc]
    refine bind_congr fun read => ?_
    cases read <;> rfl

theorem of_items_mapM (items : List Value) :
    ofItems language items = items.mapM (ofValue language) := by
  induction items with
  | nil => rfl
  | cons item items ih => rw [ofItems, List.mapM_cons, ih]

theorem member_of_ok_iff {member : Scalar × Value} {node : String × Template π} :
    memberOf language member = .ok node ↔
      keyOf language member.1 = .ok (.name node.1) ∧ ofValue language member.2 = .ok node.2 := by
  constructor
  · intro compiled
    obtain ⟨inner, first, rest⟩ := bind_ok compiled
    obtain ⟨read, keyed, finish⟩ := bind_ok rest
    cases read with
    | sectionOf path => contradiction
    | name text =>
      cases finish
      exact ⟨keyed, first⟩
  · rintro ⟨keyed, first⟩
    rw [memberOf, first, ok_bind, keyed]
    rfl

theorem of_members_cons_ok {key : Scalar} {value : Value} {members : List (Scalar × Value)}
    {nodes : List (String × Template π)}
    (compiled : ofMembers language ((key, value) :: members) = .ok nodes) :
    ∃ text node others, keyOf language key = .ok (.name text) ∧
      ofValue language value = .ok node ∧ ofMembers language members = .ok others ∧
      nodes = (text, node) :: others := by
  rw [of_members_mapM] at compiled
  obtain ⟨⟨text, node⟩, others, first, more, rfl⟩ :=
    List.forall₂_cons_left_iff.mp (mapM_ok_iff.mp compiled)
  obtain ⟨keyed, inner⟩ := (member_of_ok_iff language).mp first
  have rest : ofMembers language members = .ok others :=
    (of_members_mapM language members).trans (mapM_ok_iff.mpr more)
  exact ⟨text, node, others, keyed, inner, rest, rfl⟩

theorem of_items_cons_ok {item : Value} {items : List Value} {nodes : List (Template π)}
    (compiled : ofItems language (item :: items) = .ok nodes) :
    ∃ node others, ofValue language item = .ok node ∧ ofItems language items = .ok others ∧
      nodes = node :: others := by
  rw [of_items_mapM] at compiled
  obtain ⟨node, others, first, more, rfl⟩ :=
    List.forall₂_cons_left_iff.mp (mapM_ok_iff.mp compiled)
  have rest : ofItems language items = .ok others :=
    (of_items_mapM language items).trans (mapM_ok_iff.mpr more)
  exact ⟨node, others, first, rest, rfl⟩

theorem of_object_of_members {members : List (Scalar × Value)}
    {nodes : List (String × Template π)} (compiled : ofMembers language members = .ok nodes) :
    ofValue language (.object members) = .ok (.object nodes) := by
  rcases members with _ | ⟨⟨key, value⟩, _ | ⟨second, others⟩⟩
  · cases compiled
    rfl
  · obtain ⟨text, node, others, keyed, first, more, rfl⟩ := of_members_cons_ok language compiled
    cases more
    rw [ofValue]
    simp only [first, keyed, ok_bind]
    rfl
  · rw [of_object_several language (by simp), compiled]
    rfl

end Stencil.Template
