import Mathlib.Data.List.Perm.Basic

/-!
Outcomes of computations that may fail: what one has gone through where it succeeds, and which
failure it shows. The failure of several computations, one behind the other, is the first failure
of all their events. Two computations agree if both fail or both succeed with related results.
-/
namespace Stencil

theorem ok_bind {ε α β : Type} (a : α) (f : α → Except ε β) : (.ok a : Except ε α) >>= f = f a :=
  rfl

theorem error_bind {ε α β : Type} (e : ε) (f : α → Except ε β) :
    (.error e : Except ε α) >>= f = .error e :=
  rfl

theorem bind_ok {ε α β : Type} {x : Except ε α} {f : α → Except ε β} {b : β}
    (done : x >>= f = .ok b) : ∃ a, x = .ok a ∧ f a = .ok b := by
  cases x with
  | error e => contradiction
  | ok a => exact ⟨a, rfl, done⟩

def failureOf {ε α : Type} : Except ε α → Option ε
  | .ok _ => none
  | .error fault => some fault

theorem failure_none_iff {ε α : Type} {outcome : Except ε α} :
    failureOf outcome = none ↔ ∃ a, outcome = .ok a := by
  cases outcome <;> simp [failureOf]

theorem failure_some_iff {ε α : Type} {outcome : Except ε α} {fault : ε} :
    failureOf outcome = some fault ↔ outcome = .error fault := by
  cases outcome <;> simp [failureOf]

theorem failure_map {ε α β : Type} (x : Except ε α) (f : α → β) :
    failureOf (x >>= fun a => .ok (f a)) = failureOf x := by
  cases x <;> rfl

/-- One computation behind another fails with the first failure of the events of both. -/
theorem failure_bind {ε α β σ : Type} {x : Except ε α} {f : α → Except ε β} {first second : List σ}
    {failure? : σ → Option ε} (here : failureOf x = first.findSome? failure?)
    (behind : ∀ a, x = .ok a → failureOf (f a) = second.findSome? failure?) :
    failureOf (x >>= f) = (first ++ second).findSome? failure? := by
  rw [List.findSome?_append, ← here]
  cases x with
  | error fault => rfl
  | ok a => exact behind a rfl

theorem failure_mapM {ε α β σ : Type} {f : α → Except ε β} {events : α → List σ}
    {failure? : σ → Option ε} (xs : List α)
    (each : ∀ x, failureOf (f x) = (events x).findSome? failure?) :
    failureOf (xs.mapM f) = (xs.flatMap events).findSome? failure? := by
  induction xs with
  | nil => rfl
  | cons x xs ih =>
    rw [List.mapM_cons, List.flatMap_cons]
    refine failure_bind (each x) fun b _ => ?_
    rw [← ih]
    exact failure_map _ _

theorem first_failure_iff {ε σ : Type} {failure? : σ → Option ε} {events : List σ} {fault : ε} :
    events.findSome? failure? = some fault ↔
      ∃ before event behind, events = before ++ event :: behind ∧
        (∀ earlier ∈ before, failure? earlier = none) ∧ failure? event = some fault := by
  rw [List.findSome?_eq_some_iff]
  constructor
  · rintro ⟨before, event, behind, split, fails, succeed⟩
    exact ⟨before, event, behind, split, succeed, fails⟩
  · rintro ⟨before, event, behind, split, succeed, fails⟩
    exact ⟨before, event, behind, split, fails, succeed⟩

theorem mapM_ok_iff {ε α β : Type} {f : α → Except ε β} {xs : List α} {ys : List β} :
    xs.mapM f = .ok ys ↔ List.Forall₂ (fun x y => f x = .ok y) xs ys := by
  induction xs generalizing ys with
  | nil =>
    constructor
    · rintro ⟨⟩
      exact .nil
    · rintro ⟨⟩
      rfl
  | cons x xs ih =>
    rw [List.mapM_cons]
    constructor
    · intro done
      obtain ⟨y, first, rest⟩ := bind_ok done
      obtain ⟨ys, more, finish⟩ := bind_ok rest
      cases finish
      exact .cons first (ih.mp more)
    · rintro (_ | ⟨first, more⟩)
      rw [first, ok_bind, ih.mpr more]
      rfl

theorem related_of_mem {α β : Type} {R : α → β → Prop} {xs : List α} {ys : List β}
    (pairs : List.Forall₂ R xs ys) {y : β} (member : y ∈ ys) : ∃ x ∈ xs, R x y := by
  induction pairs with
  | nil => contradiction
  | cons first more ih =>
    rcases List.mem_cons.mp member with rfl | later
    · exact ⟨_, List.mem_cons_self .., first⟩
    · obtain ⟨x, there, related⟩ := ih later
      exact ⟨x, List.mem_cons_of_mem _ there, related⟩

theorem mapM_ok {ε α β : Type} {f : α → Except ε β} {xs : List α} {ys : List β}
    (done : xs.mapM f = .ok ys) : ∀ y ∈ ys, ∃ x ∈ xs, f x = .ok y :=
  fun _ => related_of_mem (mapM_ok_iff.mp done)

theorem mapM_then {ε η α β γ : Type} {f : α → Except ε β} {g : β → Except η γ} {xs : List α}
    {ys : List β} {zs : List γ} (one : xs.mapM f = .ok ys) (two : ys.mapM g = .ok zs) :
    List.Forall₂ (fun x z => ∃ y, f x = .ok y ∧ g y = .ok z) xs zs := by
  have first := mapM_ok_iff.mp one
  have second := mapM_ok_iff.mp two
  clear one two
  induction first generalizing zs with
  | nil =>
    cases second
    exact .nil
  | cons here more ih =>
    cases second with
    | cons there others => exact .cons ⟨_, here, there⟩ (ih others)

theorem mapM_same {ε α β γ : Type} {f : α → Except ε γ} {g : β → Except ε γ} {xs : List α}
    {ys : List β} (pairs : List.Forall₂ (fun x y => f x = g y) xs ys) :
    xs.mapM f = ys.mapM g := by
  induction pairs with
  | nil => rfl
  | cons same more ih => rw [List.mapM_cons, List.mapM_cons, same, ih]

theorem mapM_error_iff {ε α β : Type} {f : α → Except ε β} {xs : List α} {fault : ε} :
    xs.mapM f = .error fault ↔
      ∃ before x after, xs = before ++ x :: after ∧
        (∀ earlier ∈ before, ∃ b, f earlier = .ok b) ∧ f x = .error fault := by
  have first : failureOf (xs.mapM f) =
      (xs.flatMap fun x => [x]).findSome? fun x => failureOf (f x) :=
    failure_mapM xs fun x => by simp
  rw [← failure_some_iff, first, List.flatMap_singleton', first_failure_iff]
  simp only [failure_none_iff, failure_some_iff]

theorem mapM_succeeds {ε α β : Type} {f : α → Except ε β} {xs : List α}
    (each : ∀ x ∈ xs, ∃ b, f x = .ok b) : ∃ ys, xs.mapM f = .ok ys := by
  cases outcome : xs.mapM f with
  | ok ys => exact ⟨ys, rfl⟩
  | error fault =>
    obtain ⟨before, x, after, rfl, _, failed⟩ := mapM_error_iff.mp outcome
    obtain ⟨b, done⟩ := each x (by simp)
    cases done.symm.trans failed

/-- Both computations fail, or both succeed with results that are related. -/
inductive Agree {ε α β : Type} (R : α → β → Prop) : Except ε α → Except ε β → Prop where
  | succeed {a : α} {b : β} (related : R a b) : Agree R (.ok a) (.ok b)
  | fail (one two : ε) : Agree R (.error one) (.error two)

section Agree

variable {ε α β γ δ : Type}

theorem agree_refl {R : α → α → Prop} {x : Except ε α} (each : ∀ a, x = .ok a → R a a) :
    Agree R x x := by
  cases x with
  | ok a => exact .succeed (each a rfl)
  | error e => exact .fail e e

theorem agree_self (x : Except ε α) : Agree Eq x x := agree_refl fun _ _ => rfl

theorem Agree.bind {R : α → β → Prop} {S : γ → δ → Prop} {x : Except ε α} {y : Except ε β}
    {f : α → Except ε γ} {g : β → Except ε δ} (here : Agree R x y)
    (behind : ∀ a b, R a b → Agree S (f a) (g b)) : Agree S (x >>= f) (y >>= g) := by
  cases here with
  | succeed related => exact behind _ _ related
  | fail one two => exact .fail one two

theorem Agree.mono {R S : α → β → Prop} {x : Except ε α} {y : Except ε β} (here : Agree R x y)
    (wider : ∀ a b, x = .ok a → y = .ok b → R a b → S a b) : Agree S x y := by
  cases here with
  | succeed related => exact .succeed (wider _ _ rfl rfl related)
  | fail one two => exact .fail one two

theorem Agree.comp {R : α → β → Prop} {S : β → γ → Prop} {x : Except ε α} {y : Except ε β}
    {z : Except ε γ} (one : Agree R x y) (two : Agree S y z) : Agree (Relation.Comp R S) x z := by
  cases one with
  | succeed left =>
    cases two with
    | succeed right => exact .succeed ⟨_, left, right⟩
  | fail first second =>
    cases two with
    | fail _ third => exact .fail first third

theorem Agree.ok_iff {R : α → β → Prop} {x : Except ε α} {y : Except ε β} (here : Agree R x y) :
    (∃ a, x = .ok a) ↔ ∃ b, y = .ok b := by
  cases here <;> simp

theorem Agree.error_iff {R : α → β → Prop} {x : Except ε α} {y : Except ε β} (here : Agree R x y) :
    (∃ e, x = .error e) ↔ ∃ e, y = .error e := by
  cases here <;> simp

theorem Agree.related {R : α → β → Prop} {a : α} {b : β}
    (here : Agree R (.ok a : Except ε α) (.ok b)) : R a b := by
  cases here with
  | succeed related => exact related

theorem agree_mapM {R : γ → δ → Prop} {f : α → Except ε γ} {g : β → Except ε δ} {xs : List α}
    {ys : List β} (pairs : List.Forall₂ (fun x y => Agree R (f x) (g y)) xs ys) :
    Agree (List.Forall₂ R) (xs.mapM f) (ys.mapM g) := by
  induction pairs with
  | nil => exact .succeed .nil
  | cons first more ih =>
    rw [List.mapM_cons, List.mapM_cons]
    exact first.bind fun _ _ related => ih.bind fun _ _ others => .succeed (.cons related others)

theorem mapM_ok_of_perm {f : α → Except ε β} {xs ys : List α} {results : List β}
    (order : xs.Perm ys) (done : ys.mapM f = .ok results) :
    ∃ others, xs.mapM f = .ok others ∧ others.Perm results := by
  obtain ⟨others, pairs, moved⟩ := List.perm_comp_forall₂ order (mapM_ok_iff.mp done)
  exact ⟨others, mapM_ok_iff.mpr pairs, moved⟩

theorem agree_mapM_perm {f : α → Except ε β} {xs ys : List α} (order : xs.Perm ys) :
    Agree List.Perm (xs.mapM f) (ys.mapM f) := by
  cases one : xs.mapM f with
  | ok results =>
    obtain ⟨others, two, moved⟩ := mapM_ok_of_perm order.symm one
    rw [two]
    exact .succeed moved.symm
  | error e =>
    cases two : ys.mapM f with
    | ok results =>
      obtain ⟨others, done, _⟩ := mapM_ok_of_perm order two
      simp [one] at done
    | error e' => exact .fail e e'

end Agree

end Stencil
