import Stencil.Proofs.Number.Numeral
import Stencil.Proofs.Value.Parts
import Stencil.Unquote

/-!
What the text of a scalar can be, and what it is unquoted to. A text names a constant, or spells a
whole number, or spells a number with a fraction or an exponent, or is no scalar at all; it is only
one of these. Text that is refused for its length is a whole number, and nothing that is unquoted is
a string, infinite or no number.
-/
namespace Stencil

open Numeral (SpellsInteger)

def IntegerText (text : String) (count : Nat) : Prop :=
  ∃ sign digits, text.toList = sign ++ digits ∧ (sign = [] ∨ sign = ['-']) ∧ digits ≠ [] ∧
    (∀ c ∈ digits, c.isDigit) ∧ digits.length = count

inductive Spelling where
  | constant (s : Scalar)
  | integer (negative : Bool) (digits : List Char)
  | decimal
  | other
deriving DecidableEq

inductive Spelled : String → Spelling → Prop where
  | yes : Spelled "true" (.constant (.bool true))
  | no : Spelled "false" (.constant (.bool false))
  | null : Spelled "null" (.constant .null)
  | integer {text : String} {negative : Bool} {digits : List Char}
      (whole : SpellsInteger negative digits text.toList) : Spelled text (.integer negative digits)
  | decimal {text : String} {n : Numeral} (number : n.Spells text.toList)
      (broken : ∀ negative digits, ¬ SpellsInteger negative digits text.toList) :
      Spelled text .decimal
  | other {text : String} (unnamed : text ≠ "true" ∧ text ≠ "false" ∧ text ≠ "null")
      (no_number : ∀ n : Numeral, ¬ n.Spells text.toList) : Spelled text .other

/-- What a text comes to that is spelled so. Whole numbers of more than 4300 digits are too long; of
the other numbers the ones that are not finite are refused. -/
def Unquoted (text : String) : Spelling → Except UnquoteFault Scalar → Prop
  | .constant s, outcome => outcome = .ok s
  | .integer negative digits, outcome =>
    outcome =
      if digits.length ≤ 4300 then .ok (.int (Numeral.signed negative (positionalValue digits)))
      else .error (.tooManyDigits digits.length)
  | .decimal, outcome =>
    (∃ x : Binary64, outcome = .ok (.float x) ∧ x.isFinite) ∨ outcome = .error (.notScalar text)
  | .other, outcome => outcome = .error (.notScalar text)

def spellingOf (text : String) : Spelling :=
  match constant? text with
  | some s => .constant s
  | none =>
    match Numeral.read? text.toList with
    | some n => if n.isWhole then .integer n.negative n.whole else .decimal
    | none => .other

theorem constant_unnamed {text : String} :
    constant? text = none ↔ text ≠ "true" ∧ text ≠ "false" ∧ text ≠ "null" := by
  unfold constant?
  split <;> simp_all

theorem number_unnamed {text : String} {n : Numeral} (number : n.Spells text.toList) :
    constant? text = none := by
  have read := Numeral.read_complete number
  rw [constant_unnamed]
  refine ⟨?_, ?_, ?_⟩ <;> rintro rfl <;> contradiction

theorem point_of_broken {text : String} {n : Numeral} (number : n.Spells text.toList)
    (broken : ∀ negative digits, ¬ SpellsInteger negative digits text.toList) : ¬ n.isWhole := by
  intro whole
  rw [Numeral.whole_iff.mp whole, ← Numeral.spells_integer_iff] at number
  exact broken _ _ number

theorem refused_of_no_number {text : String} (no_number : ∀ n : Numeral, ¬ n.Spells text.toList) :
    Numeral.read? text.toList = none :=
  Option.eq_none_iff_forall_ne_some.mpr fun n read => no_number n (Numeral.read_sound read)

theorem spelling_of_spelled {text : String} {spelling : Spelling}
    (spelled : Spelled text spelling) : spellingOf text = spelling := by
  cases spelled with
  | yes => rfl
  | no => rfl
  | null => rfl
  | integer whole =>
    have number := Numeral.spells_integer_iff.mp whole
    simp [spellingOf, number_unnamed number, Numeral.read_complete number, Numeral.isWhole]
  | @decimal _ n number broken =>
    simp [spellingOf, number_unnamed number, Numeral.read_complete number,
      point_of_broken number broken]
  | other unnamed no_number =>
    simp [spellingOf, constant_unnamed.mpr unnamed, refused_of_no_number no_number]

theorem spelled_spelling_of (text : String) : Spelled text (spellingOf text) := by
  unfold spellingOf
  split
  · rename_i named
    unfold constant? at named
    split at named <;> cases named
    · exact .yes
    · exact .no
    · exact .null
  · rename_i unnamed
    split
    · rename_i n read
      have number := Numeral.read_sound read
      split
      · rename_i whole
        rw [Numeral.whole_iff.mp whole] at number
        exact .integer (Numeral.spells_integer_iff.mpr number)
      · rename_i point
        refine .decimal number fun negative digits whole => point ?_
        rw [Numeral.spells_unique number (Numeral.spells_integer_iff.mp whole)]
        rfl
    · rename_i refused
      refine .other (constant_unnamed.mp unnamed) fun n number => ?_
      simp [Numeral.read_complete number] at refused

theorem unquote_number {text : String} {n : Numeral} (number : n.Spells text.toList) :
    unquote text = unquoteNumeral text n := by
  simp [unquote, number_unnamed number, Numeral.read_complete number]

theorem unquote_decimal {text : String} {n : Numeral} (point : ¬ n.isWhole) :
    Unquoted text .decimal (unquoteNumeral text n) := by
  unfold unquoteNumeral
  rw [if_neg point]
  by_cases finite : n.toDecimal.toBinary64.isFinite
  · exact .inl ⟨n.toDecimal.toBinary64, by simp [finite], finite⟩
  · exact .inr (by simp [finite])

theorem unquoted_of_spelled {text : String} {spelling : Spelling}
    (spelled : Spelled text spelling) : Unquoted text spelling (unquote text) := by
  cases spelled with
  | yes => rfl
  | no => rfl
  | null => rfl
  | @integer _ negative digits whole =>
    rw [unquote_number (Numeral.spells_integer_iff.mp whole)]
    simp only [Unquoted, ← Numeral.digits_value_positional, ← Nat.not_lt, ite_not]
    rfl
  | @decimal _ n number broken =>
    rw [unquote_number number]
    exact unquote_decimal (point_of_broken number broken)
  | other unnamed no_number =>
    simp [Unquoted, unquote, constant_unnamed.mpr unnamed, refused_of_no_number no_number]

theorem too_many_digits {text : String} {count : Nat}
    (refused : unquote text = .error (.tooManyDigits count)) :
    IntegerText text count ∧ digitLimit < count := by
  have spelled := spelled_spelling_of text
  have outcome := unquoted_of_spelled spelled
  rw [refused] at outcome
  generalize spellingOf text = spelling at spelled outcome
  cases spelling with
  | constant s => cases outcome
  | decimal => rcases outcome with ⟨x, same, _⟩ | same <;> cases same
  | other => cases outcome
  | integer negative digits =>
    simp only [Unquoted] at outcome
    split at outcome
    · cases outcome
    · rename_i long
      cases outcome
      cases spelled with
      | integer whole =>
        generalize shape : text.toList = letters at whole
        obtain ⟨signed, behind⟩ := whole
        refine ⟨⟨_, digits, shape, ?_, behind.not_empty, behind.each, rfl⟩, Nat.lt_of_not_le long⟩
        cases signed with
        | plain => exact .inl rfl
        | minus => exact .inr rfl

theorem unquote_plain {text : String} {s : Scalar} (read : unquote text = .ok s) :
    s.isFinite ∧ ∀ t, s ≠ .string t := by
  have spelled := spelled_spelling_of text
  have outcome := unquoted_of_spelled spelled
  rw [read] at outcome
  generalize spellingOf text = spelling at spelled outcome
  cases spelling with
  | constant named =>
    cases outcome
    cases spelled <;> exact ⟨rfl, by simp⟩
  | decimal =>
    rcases outcome with ⟨x, same, finite⟩ | same
    · cases same
      exact ⟨finite, by simp⟩
    · cases same
  | other => cases outcome
  | integer negative digits =>
    simp only [Unquoted] at outcome
    split at outcome <;> cases outcome
    exact ⟨rfl, by simp⟩

/-- Each text is spelled in one way, and this decides what it is unquoted to. -/
theorem unquotes_as_spelled (text : String) :
    (∃! spelling, Spelled text spelling) ∧
      (∀ spelling, Spelled text spelling → Unquoted text spelling (unquote text)) ∧
      ∀ s, unquote text = .ok s → s.isFinite ∧ ∀ t, s ≠ .string t := by
  refine ⟨⟨spellingOf text, spelled_spelling_of text, ?_⟩, fun _ => unquoted_of_spelled,
    fun _ => unquote_plain⟩
  exact fun _ spelled => (spelling_of_spelled spelled).symm

theorem unquotes_as_spelled_of_zeros_in_front :
    Spelled "-007" (.integer true ['0', '0', '7']) ∧ unquote "-007" = .ok (.int (-7)) ∧
      Spelled "1." .other ∧ unquote "1." = .error (.notScalar "1.") := by
  have whole : Spelled "-007" (.integer true ['0', '0', '7']) :=
    .integer (.parts .minus ⟨by simp, by simp⟩)
  have pointless : Spelled "1." .other := by
    refine .other (by decide) fun n number => ?_
    have read := Numeral.read_complete number
    contradiction
  exact ⟨whole, (unquotes_as_spelled "-007").2.1 _ whole, pointless,
    (unquotes_as_spelled "1.").2.1 _ pointless⟩

end Stencil
