import Stencil.Proofs.Number.LeadingZero
import Stencil.Proofs.Template.Interpolation
import Stencil.Proofs.Unquote

/-!
Scalars read back from the text that they insert. Booleans and whole numbers come back as they were,
and a text of a whole number comes back without what is superfluous in it.
-/
namespace Stencil.Template

open Numeral

inductive ReadsBack : Scalar → Prop where
  | bool (b : Bool) : ReadsBack (.bool b)
  | int {n : Int} (short : (Nat.toDigits 10 n.natAbs).length ≤ 4300) : ReadsBack (.int n)

theorem unquote_whole {text : String} {negative : Bool} {digits : List Char}
    (whole : SpellsInteger negative digits text.toList) (short : digits.length ≤ 4300) :
    Stencil.unquote text = .ok (.int (signed negative (digitsValue digits))) := by
  have outcome := unquoted_of_spelled (.integer whole)
  rw [Unquoted, if_pos short, ← digits_value_positional] at outcome
  exact outcome

theorem unquote_written {s : Scalar} (reads : ReadsBack s) :
    ∃ text, Written (.scalar s) text ∧ Stencil.unquote text = .ok s := by
  cases reads with
  | bool b =>
    cases b
    · exact ⟨_, .false, rfl⟩
    · exact ⟨_, .true, rfl⟩
  | @int n short =>
    have spelled := integer_text_spells n
    rw [ofInt, ← spells_integer_iff] at spelled
    have value := of_int_value n
    have whole : SpellsInteger (n < 0) (Nat.toDigits 10 n.natAbs)
        (String.ofList (integerText n)).toList := by rwa [String.toList_ofList]
    have outcome := unquote_whole whole short
    exact ⟨_, .int short, outcome.trans (congrArg (fun m => Except.ok (Scalar.int m)) value)⟩

/-- A boolean or whole number is what its interpolated text is unquoted to. A text of a whole number
is unquoted to a number that inserts the text again, without the superfluous zeros in front and
without a minus sign before zero; so it inserts the same text if there was neither. -/
theorem interpolated_scalar_reads_back :
    (∀ s, ReadsBack s → ∃ text, Inserts (.scalar s) text ∧ Stencil.unquote text = .ok s) ∧
    ∀ text negative digits, SpellsInteger negative digits text.toList → digits.length ≤ 4300 →
      ∃ n shown, Stencil.unquote text = .ok (.int n) ∧ Inserts (.int n) shown ∧
        shown.toList = plainInteger negative digits ∧
        (shown = text ↔ ¬ LeadsWithZero digits ∧ ¬ (negative = true ∧ IsZero digits)) := by
  constructor
  · intro s reads
    obtain ⟨text, written, read⟩ := unquote_written reads
    exact ⟨text, inserts_iff.mpr written, read⟩
  · intro text negative digits whole short
    have behind := whole.digits
    have written : (String.ofList (integerText (signed negative (digitsValue digits)))).toList =
        plainInteger negative digits := by
      rw [String.toList_ofList, integer_text_of_digits negative behind]
    have fits := (digit_count_of_digits negative behind).trans short
    refine ⟨_, _, unquote_whole whole short, inserts_iff.mpr (.int fits), written, ?_⟩
    rw [← String.toList_inj, written]
    exact plain_integer_iff whole

theorem interpolated_scalar_reads_back_of_signs :
    (∃ text, Inserts (.scalar (.int (-120))) text ∧ Stencil.unquote text = .ok (.int (-120))) ∧
    (∃ n, Stencil.unquote "-007" = .ok (.int n) ∧ Inserts (.int n) "-7") ∧
    ∃ n, Stencil.unquote "-00" = .ok (.int n) ∧ Inserts (.int n) "0" := by
  obtain ⟨scalars, texts⟩ := interpolated_scalar_reads_back
  have spelled : SpellsInteger true ['0', '0', '7'] "-007".toList :=
    .parts .minus ⟨by simp, by simp⟩
  have zero : SpellsInteger true ['0', '0'] "-00".toList := .parts .minus ⟨by simp, by simp⟩
  refine ⟨scalars _ (.int (by decide)), ?_, ?_⟩
  · obtain ⟨n, shown, read, inserts, written, _⟩ := texts _ _ _ spelled (by decide)
    have same : shown = "-7" := String.toList_inj.mp (written.trans (by decide))
    exact ⟨n, read, same ▸ inserts⟩
  · obtain ⟨n, shown, read, inserts, written, _⟩ := texts _ _ _ zero (by decide)
    have same : shown = "0" := String.toList_inj.mp (written.trans (by decide))
    exact ⟨n, read, same ▸ inserts⟩

end Stencil.Template
