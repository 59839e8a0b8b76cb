import Stencil.Number.Binary64

/-!
Values: templates, documents and results are all of this type. Whole numbers have no bound and
are distinct from binary64 numbers. The members of an object keep their order, and their keys
may be any scalar, because a template or document need not come from JSON text.
-/
namespace Stencil

inductive Scalar where
  | null
  | bool (b : Bool)
  | int (n : Int)
  | float (x : Binary64)
  | string (s : String)
deriving DecidableEq

inductive Value where
  | scalar (s : Scalar)
  | array (items : List Value)
  | object (members : List (Scalar × Value))

/-- Writes `value` under `key`: in place where the key is present, else behind the others. -/
def putMember {κ α : Type} (same : κ → κ → Bool) (key : κ) (value : α) :
    List (κ × α) → List (κ × α)
  | [] => [(key, value)]
  | (k, v) :: rest =>
    if same k key then (k, value) :: rest else (k, v) :: putMember same key value rest

/-- Members with distinct keys: each key stands where it came first and carries what came last. -/
def mergeMembers {κ α : Type} (same : κ → κ → Bool) (members : List (κ × α)) : List (κ × α) :=
  members.foldl (fun merged member => putMember same member.1 member.2 merged) []

theorem put_member_of_not_mem {κ α : Type} {same : κ → κ → Bool} {key : κ} {value : α}
    {members : List (κ × α)} (h : ∀ member ∈ members, same member.1 key = false) :
    putMember same key value members = members ++ [(key, value)] := by
  induction members with
  | nil => rfl
  | cons member members ih => simp_all [putMember]

theorem fold_put_member_of_pairwise {κ α : Type} {same : κ → κ → Bool}
    (done : List (κ × α)) {members : List (κ × α)}
    (h : (done ++ members).Pairwise fun a b => same a.1 b.1 = false) :
    members.foldl (fun merged member => putMember same member.1 member.2 merged) done =
      done ++ members := by
  induction members generalizing done with
  | nil => simp
  | cons member members ih =>
    have hm : ∀ d ∈ done, same d.1 member.1 = false := fun d hd =>
      (List.pairwise_append.mp h).2.2 d hd member (by simp)
    rw [List.foldl_cons, put_member_of_not_mem hm, ih _ (by simpa using h)]
    simp

theorem merge_members_of_pairwise {κ α : Type} {same : κ → κ → Bool} {members : List (κ × α)}
    (h : members.Pairwise fun a b => same a.1 b.1 = false) :
    mergeMembers same members = members :=
  fold_put_member_of_pairwise [] h

namespace Value

instance : Inhabited Value := ⟨.scalar .null⟩

mutual

def decEq : (v w : Value) → Decidable (v = w)
  | .scalar s, .scalar t =>
    if h : s = t then isTrue (by rw [h]) else isFalse (by simpa using h)
  | .array items, .array others =>
    match decEqItems items others with
    | isTrue h => isTrue (by rw [h])
    | isFalse h => isFalse (by simpa using h)
  | .object members, .object others =>
    match decEqMembers members others with
    | isTrue h => isTrue (by rw [h])
    | isFalse h => isFalse (by simpa using h)
  | .scalar _, .array _ | .scalar _, .object _ | .array _, .scalar _ | .array _, .object _
  | .object _, .scalar _ | .object _, .array _ => isFalse (by simp)

def decEqItems : (items others : List Value) → Decidable (items = others)
  | [], [] => isTrue rfl
  | [], _ :: _ | _ :: _, [] => isFalse (by simp)
  | item :: items, other :: others =>
    match decEq item other, decEqItems items others with
    | isTrue h, isTrue hs => isTrue (by rw [h, hs])
    | isFalse h, _ => isFalse (by simp [h])
    | _, isFalse hs => isFalse (by simp [hs])

def decEqMembers : (members others : List (Scalar × Value)) → Decidable (members = others)
  | [], [] => isTrue rfl
  | [], _ :: _ | _ :: _, [] => isFalse (by simp)
  | (key, value) :: members, (other, w) :: others =>
    if hk : key = other then
      match decEq value w, decEqMembers members others with
      | isTrue h, isTrue hs => isTrue (by rw [hk, h, hs])
      | isFalse h, _ => isFalse (by simp [h])
      | _, isFalse hs => isFalse (by simp [hs])
    else isFalse (by simp [hk])

end

instance : DecidableEq Value := decEq

def null : Value := .scalar .null
def bool (b : Bool) : Value := .scalar (.bool b)
def int (n : Int) : Value := .scalar (.int n)
def float (x : Binary64) : Value := .scalar (.float x)
def string (s : String) : Value := .scalar (.string s)

def member? (key : String) : Value → Option Value
  | .object members => (members.find? (·.1 = .string key)).map (·.2)
  | _ => none

end Value
end Stencil
