import Mathlib.Data.List.Induction
import Mathlib.Data.Nat.Digits.Defs
import Stencil.Number.Numeral

/-!
How numbers are spelled: an optional minus sign, digits, then perhaps a point with digits behind
it and perhaps an exponent. The reader accepts what spells a numeral and nothing else, and reads
each text in one way only. The value of digits is positional, in base ten.
-/
namespace Stencil

section Runs

variable {p : Char → Bool} {run rest : List Char}

theorem take_run (each : ∀ c ∈ run, p c = true) (ends : ∀ c ∈ rest.head?, p c = false) :
    (run ++ rest).takeWhile p = run := by
  rw [List.takeWhile_append_of_pos each]
  cases rest with
  | nil => simp
  | cons c rest => simp [ends c rfl]

theorem drop_run (each : ∀ c ∈ run, p c = true) (ends : ∀ c ∈ rest.head?, p c = false) :
    (run ++ rest).dropWhile p = rest := by
  rw [List.dropWhile_append_of_pos each]
  cases rest with
  | nil => rfl
  | cons c rest => simp [ends c rfl]

end Runs

structure IsDigits (text : List Char) : Prop where
  not_empty : text ≠ []
  each : ∀ c ∈ text, c.isDigit

/-- The number that digits denote in base ten, the last of them the units. -/
def positionalValue (digits : List Char) : Nat :=
  Nat.ofDigits 10 (digits.reverse.map fun c => c.toNat - '0'.toNat)

namespace Numeral

inductive SpellsSign : Bool → List Char → Prop where
  | plain : SpellsSign false []
  | minus : SpellsSign true ['-']

inductive SpellsFraction : List Char → List Char → Prop where
  | absent : SpellsFraction [] []
  | point {digits : List Char} (behind : IsDigits digits) : SpellsFraction digits ('.' :: digits)

/-- Here the sign may be a plus sign too. -/
inductive SpellsExponent : Option (Bool × List Char) → List Char → Prop where
  | absent : SpellsExponent none []
  | signed {letter : Char} {negative : Bool} {sign digits : List Char}
      (marked : letter = 'e' ∨ letter = 'E')
      (signed : SpellsSign negative sign ∨ negative = false ∧ sign = ['+'])
      (behind : IsDigits digits) :
      SpellsExponent (some (negative, digits)) (letter :: (sign ++ digits))

inductive Spells : Numeral → List Char → Prop where
  | parts {negative : Bool} {sign whole fraction point power : List Char}
      {exponent : Option (Bool × List Char)} (signed : SpellsSign negative sign)
      (digits : IsDigits whole) (fractional : SpellsFraction fraction point)
      (scaled : SpellsExponent exponent power) :
      Spells ⟨negative, whole, fraction, exponent⟩ (sign ++ (whole ++ (point ++ power)))

inductive SpellsInteger : Bool → List Char → List Char → Prop where
  | parts {negative : Bool} {sign digits : List Char} (signed : SpellsSign negative sign)
      (behind : IsDigits digits) : SpellsInteger negative digits (sign ++ digits)

def EndsDigits (text : List Char) : Prop := ∀ c rest, text = c :: rest → c.isDigit = false

theorem EndsDigits.head {text : List Char} (ends : EndsDigits text) :
    ∀ c ∈ text.head?, c.isDigit = false := by
  intro c first
  obtain ⟨rest, shape⟩ := List.head?_eq_some_iff.mp first
  exact ends c rest shape

theorem take_digits {digits rest : List Char} (each : ∀ c ∈ digits, c.isDigit)
    (ends : EndsDigits rest) : (digits ++ rest).takeWhile Char.isDigit = digits :=
  take_run each ends.head

theorem drop_digits {digits rest : List Char} (each : ∀ c ∈ digits, c.isDigit)
    (ends : EndsDigits rest) : (digits ++ rest).dropWhile Char.isDigit = rest :=
  drop_run each ends.head

theorem is_digits_take {text : List Char} (some_digit : text.takeWhile Char.isDigit ≠ []) :
    IsDigits (text.takeWhile Char.isDigit) :=
  ⟨some_digit, List.all_eq_true.mp List.all_takeWhile⟩

theorem take_minus_spells (text : List Char) :
    ∃ sign, SpellsSign (takeMinus text).1 sign ∧ text = sign ++ (takeMinus text).2 := by
  unfold takeMinus
  split
  · exact ⟨['-'], .minus, rfl⟩
  · exact ⟨[], .plain, rfl⟩

theorem take_minus_digits {negative : Bool} {sign digits rest : List Char}
    (signed : SpellsSign negative sign) (behind : IsDigits digits) :
    takeMinus (sign ++ (digits ++ rest)) = (negative, digits ++ rest) := by
  cases signed with
  | minus => rfl
  | plain =>
    cases digits with
    | nil => exact absurd rfl behind.not_empty
    | cons c digits =>
      have digit := behind.each c (List.mem_cons_self ..)
      unfold takeMinus
      split
      · rename_i minus
        simp only [List.nil_append, List.cons_append, List.cons.injEq] at minus
        rw [minus.1] at digit
        contradiction
      · rfl

theorem exponent_ends_digits {exponent : Option (Bool × List Char)} {power : List Char}
    (scaled : SpellsExponent exponent power) : EndsDigits power := by
  cases scaled with
  | absent => exact fun c rest same => by contradiction
  | signed marked signed behind =>
    rintro c rest same
    cases same
    rcases marked with rfl | rfl <;> rfl

theorem fraction_ends_digits {fraction point power : List Char}
    (fractional : SpellsFraction fraction point) (ends : EndsDigits power) :
    EndsDigits (point ++ power) := by
  cases fractional with
  | absent => exact ends
  | point behind =>
    rintro c rest same
    cases same
    rfl

theorem take_fraction_sound {text fraction rest : List Char}
    (taken : takeFraction? text = some (fraction, rest)) :
    ∃ point, SpellsFraction fraction point ∧ text = point ++ rest := by
  unfold takeFraction? at taken
  split at taken
  · rename_i behind
    split at taken
    · contradiction
    · rename_i some_digit
      cases taken
      refine ⟨_, .point (is_digits_take some_digit), ?_⟩
      rw [List.cons_append, List.takeWhile_append_dropWhile]
  · cases taken
    exact ⟨[], .absent, rfl⟩

theorem take_fraction_complete {fraction point power : List Char}
    {exponent : Option (Bool × List Char)} (fractional : SpellsFraction fraction point)
    (scaled : SpellsExponent exponent power) :
    takeFraction? (point ++ power) = some (fraction, power) := by
  cases fractional with
  | absent =>
    cases scaled with
    | absent => rfl
    | signed marked signed behind => rcases marked with rfl | rfl <;> rfl
  | point behind =>
    have ends := exponent_ends_digits scaled
    have taken := take_digits behind.each ends
    obtain ⟨c, digits, rfl⟩ := List.exists_cons_of_ne_nil behind.not_empty
    simp only [List.cons_append, takeFraction?] at taken ⊢
    rw [taken, ← List.cons_append, drop_digits behind.each ends]

theorem is_digits_iff {text : List Char} :
    IsDigits text ↔ (text.isEmpty || !text.all Char.isDigit) = false := by
  rw [Bool.or_eq_false_iff, Bool.not_eq_false', List.all_eq_true, List.isEmpty_eq_false_iff]
  exact ⟨fun digits => ⟨digits.not_empty, digits.each⟩, fun ⟨first, each⟩ => ⟨first, each⟩⟩

theorem exponent_sound {text : List Char} {exponent : Option (Bool × List Char)}
    (read : exponent? text = some exponent) : SpellsExponent exponent text := by
  unfold exponent? at read
  split at read
  · cases read
    exact .absent
  · rename_i letter rest
    split at read
    · rename_i marked
      split at read
      rename_i negative digits split_sign
      split at read
      · contradiction
      · rename_i plain
        cases read
        have behind : IsDigits digits := is_digits_iff.mpr (by simpa using plain)
        split at split_sign
        · cases split_sign
          exact .signed marked (.inr ⟨rfl, rfl⟩) behind
        · obtain ⟨sign, signed, shape⟩ := take_minus_spells rest
          rw [split_sign] at signed shape
          exact shape ▸ .signed marked (.inl signed) behind
    · contradiction

theorem exponent_complete {text : List Char} {exponent : Option (Bool × List Char)}
    (scaled : SpellsExponent exponent text) : exponent? text = some exponent := by
  cases scaled with
  | absent => rfl
  | @signed letter negative sign digits marked signed behind =>
    have plain := is_digits_iff.mp behind
    rcases signed with signed | ⟨rfl, rfl⟩
    · have minus : takeMinus (sign ++ (digits ++ [])) = (negative, digits ++ []) :=
        take_minus_digits signed behind
      simp only [List.append_nil] at minus
      have no_plus : ∀ rest, sign ++ digits ≠ '+' :: rest := by
        intro rest same
        cases signed with
        | minus => cases same
        | plain =>
          have digit := behind.each '+' (by simp [show digits = '+' :: rest from same])
          contradiction
      simp only [exponent?, marked, if_true, minus, plain]
      rfl
    · simp only [exponent?, marked, if_true, List.cons_append, List.nil_append, plain]
      rfl

theorem read_sound {text : List Char} {n : Numeral} (read : read? text = some n) :
    n.Spells text := by
  obtain ⟨sign, signed, shape⟩ := take_minus_spells text
  unfold read? at read
  split at read
  rename_i negative unsigned minus
  rw [minus] at signed shape
  split at read
  · contradiction
  · rename_i some_digit
    obtain ⟨⟨fraction, rest⟩, taken, mapped⟩ := Option.bind_eq_some_iff.mp read
    obtain ⟨exponent, ended, rfl⟩ := Option.map_eq_some_iff.mp mapped
    obtain ⟨point, fractional, behind⟩ := take_fraction_sound taken
    have parts := Spells.parts signed (is_digits_take some_digit) fractional (exponent_sound ended)
    rwa [← behind, List.takeWhile_append_dropWhile, ← shape] at parts

theorem read_complete {text : List Char} {n : Numeral} (spelled : n.Spells text) :
    read? text = some n := by
  cases spelled with
  | @parts negative sign whole fraction point power exponent signed digits fractional scaled =>
    have ends := fraction_ends_digits fractional (exponent_ends_digits scaled)
    obtain ⟨c, rest, rfl⟩ := List.exists_cons_of_ne_nil digits.not_empty
    simp only [read?, take_minus_digits signed digits, take_digits digits.each ends,
      drop_digits digits.each ends, take_fraction_complete fractional scaled, Option.bind_some,
      exponent_complete scaled, Option.map_some]

theorem spells_unique {text : List Char} {n other : Numeral} (one : n.Spells text)
    (two : other.Spells text) : n = other :=
  Option.some.inj ((read_complete one).symm.trans (read_complete two))

theorem whole_iff {n : Numeral} : n.isWhole ↔ n = ⟨n.negative, n.whole, [], none⟩ := by
  obtain ⟨negative, whole, fraction, exponent⟩ := n
  simp [isWhole]

theorem spells_integer_iff {negative : Bool} {digits text : List Char} :
    SpellsInteger negative digits text ↔
      (⟨negative, digits, [], none⟩ : Numeral).Spells text := by
  constructor
  · rintro ⟨signed, behind⟩
    simpa using Spells.parts signed behind .absent .absent
  · intro spelled
    cases spelled with
    | parts signed digits fractional scaled =>
      cases fractional with
      | absent =>
        cases scaled
        simpa using SpellsInteger.parts signed digits
      | point behind => exact absurd rfl behind.not_empty

theorem digits_value_positional (digits : List Char) :
    digitsValue digits = positionalValue digits := by
  unfold digitsValue positionalValue
  induction digits using List.reverseRecOn with
  | nil => rfl
  | append_singleton digits c ih =>
    rw [Nat.ofDigitChars_append, Nat.ofDigitChars_cons, Nat.ofDigitChars_nil, ih,
      List.reverse_append, List.reverse_singleton, List.singleton_append, List.map_cons,
      Nat.ofDigits_cons, Nat.add_comm]

end Numeral
end Stencil
