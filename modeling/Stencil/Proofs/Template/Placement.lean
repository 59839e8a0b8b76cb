import Stencil.Proofs.Template.Compile

/-!
Where markers may stand. A template compiles exactly if all its strings read as what their places
allow. Any other has a first fault, and this is the one that is reported: items and members go in
their order, and a value goes before its key.
-/
namespace Stencil.Template

open Marker

variable {π : Type} (language : PathLanguage π)

inductive InValue : Reading π → Prop where
  | literal (text : String) : InValue (.literal text)
  | interpolation (tokens : List (Token π)) : InValue (.interpolation tokens)
  | raw (path : π) : InValue (.whole .raw path)
  | unquote (path : π) : InValue (.whole .unquote path)

def IsName (key : Scalar) : Prop :=
  ∃ s text, key = .string s ∧ scan language.compile s = .ok (.literal text)

def IsSection (key : Scalar) : Prop :=
  ∃ s path, key = .string s ∧ scan language.compile s = .ok (.whole .sectionOf path)

inductive WellPlaced : Value → Prop where
  | scalar {s : Scalar} (plain : ∀ text, s ≠ .string text) : WellPlaced (.scalar s)
  | string {s : String} {reading : Reading π} (scanned : scan language.compile s = .ok reading)
      (place : InValue reading) : WellPlaced (.scalar (.string s))
  | array {items : List Value} (each : ∀ item ∈ items, WellPlaced item) : WellPlaced (.array items)
  | object {members : List (Scalar × Value)} (values : ∀ member ∈ members, WellPlaced member.2)
      (keys : ∀ member ∈ members, IsName language member.1 ∨ IsSection language member.1)
      (alone : (∃ member ∈ members, IsSection language member.1) → members.length = 1) :
      WellPlaced (.object members)

inductive StringFault (s : String) : CompileFault → Prop where
  | malformed {fault : Marker.Fault} (scanned : scan language.compile s = .error fault) :
      StringFault s (.malformed fault)
  | misplaced {reading : Reading π} (scanned : scan language.compile s = .ok reading)
      (place : ¬ InValue reading) : StringFault s (.misplacedInValue reading.name s)

/-- What is wrong with a key of an object that has `count` members. -/
inductive KeyFault (count : Nat) : Scalar → CompileFault → Prop where
  | notString {key : Scalar} (other : ∀ s, key ≠ .string s) : KeyFault count key (.keyNotString key)
  | malformed {s : String} {fault : Marker.Fault}
      (scanned : scan language.compile s = .error fault) :
      KeyFault count (.string s) (.malformed fault)
  | notAlone {key : Scalar} (marker : IsSection language key) (several : count ≠ 1) :
      KeyFault count key (.sectionNotAlone key)
  | misplaced {s : String} {reading : Reading π} (scanned : scan language.compile s = .ok reading)
      (name : ¬ IsName language (.string s)) (marker : ¬ IsSection language (.string s)) :
      KeyFault count (.string s) (.misplacedInKey reading.name s)

/-- The first fault of a template. All before it is well placed, and what is behind it plays no
part. -/
inductive FirstFault : Value → CompileFault → Prop where
  | string {s : String} {fault : CompileFault} (wrong : StringFault language s fault) :
      FirstFault (.scalar (.string s)) fault
  | item {before after : List Value} {item : Value} {fault : CompileFault}
      (placed : ∀ other ∈ before, WellPlaced language other) (first : FirstFault item fault) :
      FirstFault (.array (before ++ item :: after)) fault
  | value {before after : List (Scalar × Value)} {key : Scalar} {value : Value}
      {fault : CompileFault} (names : ∀ member ∈ before, IsName language member.1)
      (placed : ∀ member ∈ before, WellPlaced language member.2) (first : FirstFault value fault) :
      FirstFault (.object (before ++ (key, value) :: after)) fault
  | key {before after : List (Scalar × Value)} {key : Scalar} {value : Value}
      {fault : CompileFault} (names : ∀ member ∈ before, IsName language member.1)
      (placed : ∀ member ∈ before, WellPlaced language member.2)
      (inner : WellPlaced language value)
      (wrong : KeyFault language (before ++ (key, value) :: after).length key fault) :
      FirstFault (.object (before ++ (key, value) :: after)) fault

def Compilable (value : Value) : Prop := ∃ template, ofValue language value = .ok template

theorem key_of_name_iff {key : Scalar} :
    (∃ text, keyOf language key = .ok (.name text)) ↔ IsName language key := by
  constructor
  · rintro ⟨text, keyed⟩
    obtain ⟨s, reading, rfl, scanned, ⟨_, rfl, _⟩ | ⟨_, _, other⟩⟩ := key_of_ok language keyed
    · exact ⟨s, _, rfl, scanned⟩
    · contradiction
  · rintro ⟨s, text, rfl, scanned⟩
    exact ⟨text, by simp [keyOf, scanned]⟩

theorem key_of_section_iff {key : Scalar} :
    (∃ path, keyOf language key = .ok (.sectionOf path)) ↔ IsSection language key := by
  constructor
  · rintro ⟨path, keyed⟩
    obtain ⟨s, reading, rfl, scanned, ⟨_, _, other⟩ | ⟨_, rfl, _⟩⟩ := key_of_ok language keyed
    · contradiction
    · exact ⟨s, _, rfl, scanned⟩
  · rintro ⟨s, path, rfl, scanned⟩
    exact ⟨path, by simp [keyOf, scanned]⟩

theorem of_string_ok_iff {s : String} :
    Compilable language (.scalar (.string s)) ↔
      ∃ reading, scan language.compile s = .ok reading ∧ InValue reading := by
  constructor
  · rintro ⟨template, compiled⟩
    rw [ofValue, ofString] at compiled
    split at compiled
    · contradiction
    · rename_i text scanned
      exact ⟨_, scanned, .literal text⟩
    · rename_i tokens scanned
      exact ⟨_, scanned, .interpolation tokens⟩
    · rename_i path scanned
      exact ⟨_, scanned, .raw path⟩
    · rename_i path scanned
      exact ⟨_, scanned, .unquote path⟩
    · contradiction
  · rintro ⟨reading, scanned, place⟩
    cases place <;> exact ⟨_, by rw [ofValue, ofString, scanned]⟩

theorem of_string_error_iff {s : String} {fault : CompileFault} :
    ofValue language (.scalar (.string s)) = .error fault ↔ StringFault language s fault := by
  constructor
  · intro failed
    have refused : ¬ Compilable language (.scalar (.string s)) := by
      rintro ⟨template, compiled⟩
      simp [failed] at compiled
    rw [of_string_ok_iff] at refused
    rw [ofValue, ofString] at failed
    split at failed
    · rename_i scanned
      cases failed
      exact .malformed scanned
    · contradiction
    · contradiction
    · contradiction
    · contradiction
    · rename_i reading _ _ _ _ scanned
      cases failed
      exact .misplaced scanned fun place => refused ⟨reading, scanned, place⟩
  · intro wrong
    cases wrong with
    | malformed scanned => rw [ofValue, ofString, scanned]
    | @misplaced reading scanned place =>
      rw [ofValue, ofString, scanned]
      cases reading with
      | literal text => exact absurd (.literal text) place
      | interpolation tokens => exact absurd (.interpolation tokens) place
      | whole kind path =>
        cases kind with
        | raw => exact absurd (.raw path) place
        | unquote => exact absurd (.unquote path) place
        | sectionOf => rfl
        | switch => rfl

theorem key_fault_iff {count : Nat} {key : Scalar} {fault : CompileFault} :
    KeyFault language count key fault ↔
      keyOf language key = .error fault ∨
        IsSection language key ∧ count ≠ 1 ∧ fault = .sectionNotAlone key := by
  constructor
  · intro wrong
    cases wrong with
    | notString other =>
      left
      cases key with
      | string s => exact absurd rfl (other s)
      | _ => rfl
    | malformed scanned => exact .inl (by simp [keyOf, scanned])
    | notAlone marker several => exact .inr ⟨marker, several, rfl⟩
    | @misplaced s reading scanned name marker =>
      left
      cases keyed : keyOf language (.string s) with
      | error other =>
        simp only [keyOf, scanned] at keyed
        split at keyed <;> simp_all
      | ok read =>
        cases read with
        | name text => exact absurd ((key_of_name_iff language).mp ⟨text, keyed⟩) name
        | sectionOf path => exact absurd ((key_of_section_iff language).mp ⟨path, keyed⟩) marker
  · rintro (keyed | ⟨marker, several, rfl⟩)
    · have name : ¬ IsName language key := by
        rw [← key_of_name_iff]
        simp [keyed]
      have marker : ¬ IsSection language key := by
        rw [← key_of_section_iff]
        simp [keyed]
      unfold keyOf at keyed
      split at keyed
      · split at keyed
        · rename_i scanned
          cases keyed
          exact .malformed scanned
        · contradiction
        · contradiction
        · rename_i scanned
          cases keyed
          exact .misplaced scanned name marker
      · rename_i other
        cases keyed
        exact .notString other
    · exact .notAlone marker several

theorem of_items_ok {items : List Value} (each : ∀ item ∈ items, Compilable language item) :
    ∃ nodes, ofItems language items = .ok nodes := by
  rw [of_items_mapM]
  exact mapM_succeeds each

theorem of_items_error {before after : List Value} {item : Value} {fault : CompileFault}
    (each : ∀ other ∈ before, Compilable language other)
    (failed : ofValue language item = .error fault) :
    ofItems language (before ++ item :: after) = .error fault := by
  rw [of_items_mapM]
  exact mapM_error_iff.mpr ⟨before, item, after, rfl, each, failed⟩

theorem member_of_name {member : Scalar × Value} (name : IsName language member.1)
    (inner : Compilable language member.2) : ∃ node, memberOf language member = .ok node := by
  obtain ⟨node, first⟩ := inner
  obtain ⟨text, keyed⟩ := (key_of_name_iff language).mpr name
  exact ⟨(text, node), (member_of_ok_iff language).mpr ⟨keyed, first⟩⟩

theorem of_members_ok {members : List (Scalar × Value)}
    (names : ∀ member ∈ members, IsName language member.1)
    (each : ∀ member ∈ members, Compilable language member.2) :
    ∃ nodes, ofMembers language members = .ok nodes := by
  rw [of_members_mapM]
  exact mapM_succeeds fun member there =>
    member_of_name language (names member there) (each member there)

theorem of_members_error {before after : List (Scalar × Value)} {fault : CompileFault}
    (names : ∀ member ∈ before, IsName language member.1)
    (each : ∀ member ∈ before, Compilable language member.2)
    (failed : ofMembers language after = .error fault) :
    ofMembers language (before ++ after) = .error fault := by
  obtain ⟨nodes, compiled⟩ := of_members_ok language names each
  rw [of_members_mapM] at compiled failed ⊢
  rw [List.mapM_append, compiled, failed]
  rfl

theorem append_cons_single {α : Type} {before after : List α} {a : α}
    (single : (before ++ a :: after).length = 1) : before = [] ∧ after = [] := by
  simp only [List.length_append, List.length_cons] at single
  exact ⟨List.length_eq_zero_iff.mp (by omega), List.length_eq_zero_iff.mp (by omega)⟩

theorem of_object_error {before after : List (Scalar × Value)} {key : Scalar} {value : Value}
    {fault : CompileFault} (names : ∀ member ∈ before, IsName language member.1)
    (each : ∀ member ∈ before, Compilable language member.2)
    (wrong : ofValue language value = .error fault ∨
      Compilable language value ∧
        KeyFault language (before ++ (key, value) :: after).length key fault) :
    ofValue language (.object (before ++ (key, value) :: after)) = .error fault := by
  by_cases single : (before ++ (key, value) :: after).length = 1
  · obtain ⟨rfl, rfl⟩ := append_cons_single single
    rw [List.nil_append, ofValue]
    rcases wrong with failed | ⟨⟨node, inner⟩, wrong⟩
    · rw [failed, error_bind]
    · rcases (key_fault_iff language).mp wrong with keyed | ⟨_, other, _⟩
      · rw [inner, ok_bind, keyed, error_bind]
      · exact absurd single other
  · have failed : ofMembers language ((key, value) :: after) = .error fault := by
      rw [ofMembers]
      rcases wrong with failed | ⟨⟨node, inner⟩, wrong⟩
      · rw [failed, error_bind]
      · rcases (key_fault_iff language).mp wrong with keyed | ⟨marker, _, rfl⟩
        · rw [inner, ok_bind, keyed, error_bind]
        · obtain ⟨path, keyed⟩ := (key_of_section_iff language).mpr marker
          rw [inner, ok_bind, keyed, ok_bind]
    rw [of_object_several language single, of_members_error language names each failed,
      error_bind]

theorem well_placed_compiles {value : Value} (placed : WellPlaced language value) :
    Compilable language value := by
  induction placed with
  | @scalar s plain =>
    cases s with
    | string text => exact absurd rfl (plain text)
    | _ => exact ⟨_, rfl⟩
  | string scanned place => exact (of_string_ok_iff language).mpr ⟨_, scanned, place⟩
  | array each ih =>
    obtain ⟨nodes, compiled⟩ := of_items_ok language ih
    exact ⟨.array nodes, by rw [ofValue, compiled]; rfl⟩
  | @object members values keys alone ih =>
    by_cases marked : ∃ member ∈ members, IsSection language member.1
    · obtain ⟨⟨key, value⟩, single⟩ := List.length_eq_one_iff.mp (alone marked)
      subst single
      obtain ⟨body, inner⟩ := ih (key, value) (by simp)
      obtain ⟨path, keyed⟩ := (key_of_section_iff language).mpr (by simpa using marked)
      exact ⟨.sectionOf path body, by rw [ofValue, inner, ok_bind, keyed]; rfl⟩
    · have names : ∀ member ∈ members, IsName language member.1 := fun member there =>
        (keys member there).resolve_right fun marker => marked ⟨member, there, marker⟩
      obtain ⟨nodes, compiled⟩ := of_members_ok language names ih
      exact ⟨.object nodes, of_object_of_members language compiled⟩

theorem first_fault_reported {value : Value} {fault : CompileFault}
    (first : FirstFault language value fault) : ofValue language value = .error fault := by
  induction first with
  | string wrong => exact (of_string_error_iff language).mpr wrong
  | item placed first ih =>
    have each := fun other there => well_placed_compiles language (placed other there)
    rw [ofValue, of_items_error language each ih, error_bind]
  | value names placed first ih =>
    have each := fun member there => well_placed_compiles language (placed member there)
    exact of_object_error language names each (.inl ih)
  | key names placed inner wrong =>
    have each := fun member there => well_placed_compiles language (placed member there)
    exact of_object_error language names each (.inr ⟨well_placed_compiles language inner, wrong⟩)

theorem key_sorts (count : Nat) (key : Scalar) :
    IsName language key ∨ IsSection language key ∨ ∃ fault, KeyFault language count key fault := by
  cases keyed : keyOf language key with
  | error fault => exact .inr (.inr ⟨fault, (key_fault_iff language).mpr (.inl keyed)⟩)
  | ok read =>
    cases read with
    | name text => exact .inl ((key_of_name_iff language).mp ⟨text, keyed⟩)
    | sectionOf path => exact .inr (.inl ((key_of_section_iff language).mp ⟨path, keyed⟩))

theorem section_not_name {key : Scalar} (marker : IsSection language key) :
    ¬ IsName language key := by
  obtain ⟨s, path, rfl, scanned⟩ := marker
  rintro ⟨_, text, same, read⟩
  cases same
  simp [scanned] at read

theorem section_placed {key : Scalar} {value : Value} (inner : WellPlaced language value)
    (marker : IsSection language key) : WellPlaced language (.object [(key, value)]) :=
  .object (by simpa using inner) (by simp [marker]) fun _ => rfl

mutual

theorem placed_or_faulty : (value : Value) →
    WellPlaced language value ∨ ∃ fault, FirstFault language value fault
  | .scalar s => by
    cases s with
    | string s =>
      cases compiled : ofValue language (.scalar (.string s)) with
      | ok template =>
        obtain ⟨reading, scanned, place⟩ := (of_string_ok_iff language).mp ⟨template, compiled⟩
        exact .inl (.string scanned place)
      | error fault =>
        exact .inr ⟨fault, .string ((of_string_error_iff language).mp compiled)⟩
    | _ => exact .inl (.scalar (by simp))
  | .array items => by
    rcases items_placed_or_faulty items with each | ⟨before, item, after, rfl, placed, fault, first⟩
    · exact .inl (.array each)
    · exact .inr ⟨fault, .item placed first⟩
  | .object members => by
    rcases members_placed_or_faulty members with
      ⟨names, placed⟩ | ⟨before, key, value, after, rfl, names, placed, faulty⟩
    · refine .inl (.object placed (fun member there => .inl (names member there)) ?_)
      rintro ⟨member, there, marker⟩
      exact absurd (names member there) (section_not_name language marker)
    · rcases faulty with ⟨fault, first⟩ | ⟨inner, other⟩
      · exact .inr ⟨fault, .value names placed first⟩
      · rcases key_sorts language (before ++ (key, value) :: after).length key with
          name | marker | ⟨fault, wrong⟩
        · exact absurd name other
        · by_cases single : (before ++ (key, value) :: after).length = 1
          · obtain ⟨rfl, rfl⟩ := append_cons_single single
            exact .inl (section_placed language inner marker)
          · exact .inr ⟨_, .key names placed inner (.notAlone marker single)⟩
        · exact .inr ⟨fault, .key names placed inner wrong⟩

theorem items_placed_or_faulty : (items : List Value) →
    (∀ item ∈ items, WellPlaced language item) ∨
      ∃ before item after, items = before ++ item :: after ∧
        (∀ other ∈ before, WellPlaced language other) ∧ ∃ fault, FirstFault language item fault
  | [] => .inl (by simp)
  | item :: items => by
    rcases placed_or_faulty item with placed | faulty
    · rcases items_placed_or_faulty items with each | ⟨before, inner, after, rfl, earlier, faulty⟩
      · exact .inl (by simpa [placed] using each)
      · exact .inr ⟨item :: before, inner, after, rfl, by simpa [placed] using earlier, faulty⟩
    · exact .inr ⟨[], item, items, rfl, by simp, faulty⟩

theorem members_placed_or_faulty : (members : List (Scalar × Value)) →
    ((∀ member ∈ members, IsName language member.1) ∧
      ∀ member ∈ members, WellPlaced language member.2) ∨
      ∃ before key value after, members = before ++ (key, value) :: after ∧
        (∀ member ∈ before, IsName language member.1) ∧
        (∀ member ∈ before, WellPlaced language member.2) ∧
        ((∃ fault, FirstFault language value fault) ∨
          WellPlaced language value ∧ ¬ IsName language key)
  | [] => .inl (by simp)
  | (key, value) :: members => by
    rcases placed_or_faulty value with placed | faulty
    · by_cases name : IsName language key
      · rcases members_placed_or_faulty members with
          ⟨names, each⟩ | ⟨before, other, inner, after, rfl, names, earlier, faulty⟩
        · exact .inl ⟨by simpa [name] using names, by simpa [placed] using each⟩
        · exact .inr ⟨(key, value) :: before, other, inner, after, rfl,
            by simpa [name] using names, by simpa [placed] using earlier, faulty⟩
      · exact .inr ⟨[], key, value, members, rfl, by simp, by simp, .inr ⟨placed, name⟩⟩
    · exact .inr ⟨[], key, value, members, rfl, by simp, by simp, .inl faulty⟩

end

theorem first_fault_of_error {value : Value} {fault : CompileFault}
    (failed : ofValue language value = .error fault) : FirstFault language value fault := by
  rcases placed_or_faulty language value with placed | ⟨other, first⟩
  · obtain ⟨compiled, success⟩ := well_placed_compiles language placed
    simp [failed] at success
  · have reported := first_fault_reported language first
    rw [failed] at reported
    cases reported
    exact first

theorem malformed_scanned {value : Value} {fault : Marker.Fault}
    (first : FirstFault language value (.malformed fault)) :
    ∃ s, scan language.compile s = .error fault := by
  generalize named : CompileFault.malformed fault = reported at first
  induction first with
  | string wrong =>
    cases wrong with
    | malformed scanned =>
      cases named
      exact ⟨_, scanned⟩
    | misplaced scanned place => contradiction
  | item placed first ih => exact ih named
  | value names placed first ih => exact ih named
  | key names placed inner wrong =>
    cases wrong with
    | malformed scanned =>
      cases named
      exact ⟨_, scanned⟩
    | notString other => contradiction
    | notAlone marker several => contradiction
    | misplaced scanned name marker => contradiction

/-- A template compiles exactly if all its markers are well placed, and else its first fault is
reported. -/
theorem compiles_exactly_well_placed (template : Value) :
    ((∃ compiled, ofValue language template = .ok compiled) ↔ WellPlaced language template) ∧
      ∀ fault, ofValue language template = .error fault ↔ FirstFault language template fault := by
  constructor
  · constructor
    · rintro ⟨compiled, success⟩
      rcases placed_or_faulty language template with placed | ⟨fault, first⟩
      · exact placed
      · simp [first_fault_reported language first] at success
    · exact well_placed_compiles language
  · intro fault
    exact ⟨first_fault_of_error language, first_fault_reported language⟩

end Stencil.Template
