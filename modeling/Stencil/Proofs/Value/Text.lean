import Stencil.Template.Render

/-!
The text of values between other text. A whole number has a text if it has at most 4300 digits, and
an array or an object has one if that is so of all whole numbers in it. Any other value has one.
-/
namespace Stencil

theorem digit_count_le_iff {n : Int} {k : Nat} (positive : 0 < k) :
    digitCount n ≤ k ↔ n.natAbs < Nat.pow 10 k :=
  Nat.length_toDigits_le_iff (by decide) positive

theorem digit_count_power {k : Nat} (positive : 0 < k) :
    k < digitCount (Int.ofNat (Nat.pow 10 k)) := by
  have size : (Int.ofNat (Nat.pow 10 k)).natAbs = Nat.pow 10 k := rfl
  rw [← Nat.not_le, digit_count_le_iff positive, size]
  exact Nat.lt_irrefl _

def firstLong : Int := Int.ofNat (Nat.pow 10 digitLimit)

theorem first_long_beyond : digitLimit < digitCount firstLong := digit_count_power (by decide)

/-- A whole number of more than 4300 digits stands somewhere in the value, perhaps as a key. -/
inductive HoldsLongNumber : Value → Prop where
  | number {n : Int} (long : 4300 < digitCount n) : HoldsLongNumber (.scalar (.int n))
  | item {items : List Value} {item : Value} (listed : item ∈ items)
      (below : HoldsLongNumber item) : HoldsLongNumber (.array items)
  | key {members : List (Scalar × Value)} {n : Int} {value : Value}
      (listed : (.int n, value) ∈ members) (long : 4300 < digitCount n) :
      HoldsLongNumber (.object members)
  | member {members : List (Scalar × Value)} {member : Scalar × Value} (listed : member ∈ members)
      (below : HoldsLongNumber member.2) : HoldsLongNumber (.object members)

inductive Written : Value → String → Prop where
  | string (s : String) : Written (.scalar (.string s)) s
  | null : Written (.scalar .null) ""
  | true : Written (.scalar (.bool true)) "true"
  | false : Written (.scalar (.bool false)) "false"
  | int {n : Int} (short : digitCount n ≤ 4300) :
      Written (.scalar (.int n)) (String.ofList (integerText n))
  | float (x : Binary64) : Written (.scalar (.float x)) (String.ofList x.text)
  | array {items : List Value} (short : ¬ HoldsLongNumber (.array items)) :
      Written (.array items) (Json.encode (.array items))
  | object {members : List (Scalar × Value)} (short : ¬ HoldsLongNumber (.object members)) :
      Written (.object members) (Json.encode (.object members))

theorem scalar_long_iff {s : Scalar} :
    s.isLong = true ↔ ∃ n, s = .int n ∧ 4300 < digitCount n := by
  cases s with
  | int n =>
    constructor
    · intro long
      exact ⟨n, rfl, of_decide_eq_true long⟩
    · rintro ⟨m, ⟨⟩, long⟩
      exact decide_eq_true long
  | _ => simp [Scalar.isLong]

theorem long_scalar_iff {s : Scalar} : HoldsLongNumber (.scalar s) ↔ s.isLong = true := by
  rw [scalar_long_iff]
  constructor
  · rintro ⟨long⟩
    exact ⟨_, rfl, long⟩
  · rintro ⟨n, rfl, long⟩
    exact .number long

theorem long_array_iff {items : List Value} :
    HoldsLongNumber (.array items) ↔ ∃ item ∈ items, HoldsLongNumber item := by
  constructor
  · rintro (_ | ⟨listed, below⟩)
    exact ⟨_, listed, below⟩
  · rintro ⟨item, listed, below⟩
    exact .item listed below

theorem long_object_iff {members : List (Scalar × Value)} :
    HoldsLongNumber (.object members) ↔
      ∃ member ∈ members, member.1.isLong = true ∨ HoldsLongNumber member.2 := by
  constructor
  · rintro (_ | _ | ⟨listed, long⟩ | ⟨listed, below⟩)
    · exact ⟨_, listed, .inl (scalar_long_iff.mpr ⟨_, rfl, long⟩)⟩
    · exact ⟨_, listed, .inr below⟩
  · rintro ⟨⟨key, value⟩, listed, long | below⟩
    · obtain ⟨n, rfl, digits⟩ := scalar_long_iff.mp long
      exact .key listed digits
    · exact .member listed below

mutual

theorem holds_long_iff : (v : Value) → (v.holdsLong = true ↔ HoldsLongNumber v)
  | .scalar s => by rw [Value.holdsLong, long_scalar_iff]
  | .array items => by rw [Value.holdsLong, items_hold_long_iff items, long_array_iff]
  | .object members => by rw [Value.holdsLong, members_hold_long_iff members, long_object_iff]

theorem items_hold_long_iff : (items : List Value) →
    (Value.itemsHoldLong items = true ↔ ∃ item ∈ items, HoldsLongNumber item)
  | [] => by simp [Value.itemsHoldLong]
  | item :: items => by
    rw [Value.itemsHoldLong, Bool.or_eq_true, holds_long_iff item, items_hold_long_iff items]
    simp only [List.mem_cons, exists_eq_or_imp]

theorem members_hold_long_iff : (members : List (Scalar × Value)) →
    (Value.membersHoldLong members = true ↔
      ∃ member ∈ members, member.1.isLong = true ∨ HoldsLongNumber member.2)
  | [] => by simp [Value.membersHoldLong]
  | (key, value) :: members => by
    rw [Value.membersHoldLong, Bool.or_eq_true, Bool.or_eq_true, holds_long_iff value,
      members_hold_long_iff members]
    simp only [List.mem_cons, exists_eq_or_imp]

end

theorem plain_text_none_iff {v : Value} : v.plainText = none ↔ HoldsLongNumber v := by
  rw [← holds_long_iff]
  unfold Value.plainText
  split <;> simp [Value.holdsLong, Scalar.isLong]

theorem written_of_short {v : Value} (short : ¬ HoldsLongNumber v) : ∃ text, Written v text := by
  cases v with
  | array items => exact ⟨_, .array short⟩
  | object members => exact ⟨_, .object short⟩
  | scalar s =>
    cases s with
    | null => exact ⟨_, .null⟩
    | bool b =>
      cases b
      · exact ⟨_, .false⟩
      · exact ⟨_, .true⟩
    | int n => exact ⟨_, .int (Nat.not_lt.mp fun long => short (.number long))⟩
    | float x => exact ⟨_, .float x⟩
    | string s => exact ⟨_, .string s⟩

theorem written_plain_text {v : Value} {text : String} (written : Written v text) :
    v.plainText = some text := by
  cases written with
  | int short => exact if_neg (Nat.not_lt.mpr short)
  | array short => exact if_neg (mt (holds_long_iff _).mp short)
  | object short => exact if_neg (mt (holds_long_iff _).mp short)
  | _ => rfl

theorem plain_text_iff {v : Value} {text : String} :
    v.plainText = some text ↔ Written v text := by
  constructor
  · intro read
    have short : ¬ HoldsLongNumber v := by simp [← plain_text_none_iff, read]
    obtain ⟨other, written⟩ := written_of_short short
    obtain rfl := Option.some.inj (read.symm.trans (written_plain_text written))
    exact written
  · exact written_plain_text

namespace Template

variable {π : Type} {path : π} {v : Value}

theorem write_value_ok_iff {text : String} : writeValue path v = .ok text ↔ Written v text := by
  rw [← plain_text_iff, writeValue]
  cases v.plainText <;> simp

theorem write_value_error_iff {fault : RenderFault π} :
    writeValue path v = .error fault ↔ fault = .tooLong path ∧ HoldsLongNumber v := by
  rw [← plain_text_none_iff, writeValue]
  cases v.plainText <;> simp [eq_comm]

end Template
end Stencil
