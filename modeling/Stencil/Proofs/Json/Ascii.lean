import Stencil.Proofs.Json.Literal
import Stencil.Proofs.Number.IntegerText
import Stencil.Proofs.Template.Escape
import Stencil.Proofs.Value.Parts

/-!
JSON text is printed ASCII: every character that is no such character is escaped in a string, and a
value without fractions has nothing else around its strings.
-/
namespace Stencil.Json

open Template (IsJson mem_named named)
open Text (hex literalChar numberEscape unitEscape)

def AllPlain (text : List Char) : Prop := ∀ c ∈ text, isPlain c = true

instance (text : List Char) : Decidable (AllPlain text) :=
  List.decidableBAll (fun c => isPlain c = true) text

theorem all_plain_cons {c : Char} {text : List Char} :
    AllPlain (c :: text) ↔ isPlain c = true ∧ AllPlain text :=
  List.forall_mem_cons

theorem all_plain_append {one two : List Char} :
    AllPlain (one ++ two) ↔ AllPlain one ∧ AllPlain two :=
  List.forall_mem_append

theorem digit_plain {c : Char} (digit : c.isDigit = true) : isPlain c = true := by
  simp only [Char.isDigit, ge_iff_le, Bool.and_eq_true, decide_eq_true_eq, UInt32.le_iff_toNat_le]
    at digit
  have lower : 48 ≤ c.toNat := digit.1
  have upper : c.toNat ≤ 57 := digit.2
  simp only [isPlain, Bool.and_eq_true, decide_eq_true_eq]
  omega

theorem hex_plain (width n : Nat) : AllPlain (hex width n) := by
  induction width generalizing n with
  | zero => simp [hex, AllPlain]
  | succ width ih =>
    have digit : ∀ d < 16, isPlain (Nat.digitChar d) = true := by decide
    have last : AllPlain [Nat.digitChar (n % 16)] := by
      simpa [AllPlain] using digit _ (Nat.mod_lt n (by decide))
    exact all_plain_append.mpr ⟨ih _, last⟩

theorem unit_escape_plain (unit : Nat) : AllPlain (unitEscape unit) :=
  all_plain_cons.mpr ⟨rfl, all_plain_cons.mpr ⟨rfl, hex_plain 4 unit⟩⟩

theorem number_escape_plain (c : Char) : AllPlain (numberEscape c) := by
  unfold numberEscape
  split
  · exact unit_escape_plain _
  · exact all_plain_append.mpr ⟨unit_escape_plain _, unit_escape_plain _⟩

theorem literal_char_plain (c : Char) : AllPlain (literalChar '"' isPlain c) := by
  unfold literalChar
  split
  · rename_i special
    rcases special with rfl | rfl <;> decide
  · split
    · rename_i letter control
      have letters : ∀ pair ∈ Text.controls, AllPlain ['\\', pair.2] := by decide
      exact letters _ (Text.control_letter_listed control)
    · split
      · rename_i plain
        simpa [AllPlain] using plain
      · exact number_escape_plain c

theorem string_text_plain (s : String) : AllPlain (stringText s) := by
  have chars : AllPlain (s.toList.flatMap (literalChar '"' isPlain)) := by
    intro c member
    obtain ⟨d, _, inside⟩ := List.mem_flatMap.mp member
    exact literal_char_plain d c inside
  exact all_plain_cons.mpr ⟨rfl, all_plain_append.mpr ⟨chars, by decide⟩⟩

theorem integer_text_plain (n : Int) : AllPlain (integerText n) := by
  intro c member
  rcases integer_text_char member with rfl | digit
  · rfl
  · exact digit_plain digit

theorem separated_plain {texts : List (List Char)} (each : ∀ text ∈ texts, AllPlain text) :
    AllPlain (separated texts) := by
  fun_induction separated texts with
  | case1 => simp [AllPlain]
  | case2 text => exact each text (by simp)
  | case3 text next rest ih =>
    have behind := ih fun other member => each other (List.mem_cons_of_mem _ member)
    have comma : AllPlain [',', ' '] := by decide
    exact all_plain_append.mpr ⟨each text (by simp), all_plain_append.mpr ⟨comma, behind⟩⟩

theorem member_text_plain {member : String × Value} (plain : AllPlain (valueText member.2)) :
    AllPlain (keyText (.string member.1) ++ ':' :: ' ' :: valueText member.2) := by
  have behind : AllPlain (':' :: ' ' :: valueText member.2) :=
    all_plain_cons.mpr ⟨rfl, all_plain_cons.mpr ⟨rfl, plain⟩⟩
  exact all_plain_append.mpr ⟨string_text_plain member.1, behind⟩

theorem value_text_plain {v : Value} (json : IsJson v) (whole : ∀ x, ¬ v.Contains (.float x)) :
    AllPlain (valueText v) := by
  induction json with
  | scalar s =>
    cases s with
    | null => decide
    | bool b => cases b <;> decide
    | int n => exact integer_text_plain n
    | float x => exact absurd (.self _) (whole x)
    | string s => exact string_text_plain s
  | @array items each ih =>
    have texts : ∀ text ∈ itemTexts items, AllPlain text := by
      rw [item_texts_map, List.forall_mem_map]
      intro item listed
      exact ih item listed fun x inside => whole x (.item listed inside)
    exact all_plain_cons.mpr ⟨rfl, all_plain_append.mpr ⟨separated_plain texts, by decide⟩⟩
  | @object members distinct each ih =>
    have texts : ∀ text ∈ memberTexts (named members), AllPlain text := by
      rw [member_texts_map, named, List.map_map, List.forall_mem_map]
      intro member listed
      apply member_text_plain
      exact ih member listed fun x inside => whole x (.member (mem_named listed) inside)
    exact all_plain_cons.mpr ⟨rfl, all_plain_append.mpr ⟨separated_plain texts, by decide⟩⟩

end Stencil.Json
