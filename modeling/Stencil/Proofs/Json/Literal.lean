import Stencil.Json.Decode
import Stencil.Json.Encode

/-!
String literals read back. Every character is written so that reading its units and joining them
gives it again, with any text behind it; so the JSON text of a string decodes to that string.
-/
namespace Stencil

namespace Text

/-- The units of what is written for a character join to that character. -/
def ReadsAs (quote : Char) (spelling : List Char) (c : Char) : Prop :=
  ∃ units : List Nat,
    (∀ rest, takeUnits quote (spelling ++ rest) =
      (takeUnits quote rest).map (Prod.map (units ++ ·) id)) ∧
    ∀ more, joinUnits (units ++ more) = (joinUnits more).map (c :: ·)

theorem scalar_value (c : Char) :
    c.toNat < 0xD800 ∨ 0xDFFF < c.toNat ∧ c.toNat < 0x110000 := c.valid

theorem not_surrogate (c : Char) : isHigh c.toNat = false ∧ isLow c.toNat = false := by
  have valid := scalar_value c
  simp only [isHigh, isLow, Bool.and_eq_false_iff, decide_eq_false_iff_not]
  omega

theorem join_units_char (c : Char) (more : List Nat) :
    joinUnits ([c.toNat] ++ more) = (joinUnits more).map (c :: ·) := by
  obtain ⟨high, low⟩ := not_surrogate c
  cases more with
  | nil => simp [joinUnits, high, low]
  | cons next more => simp [joinUnits, high, low]

theorem surrogate_ranges {c : Char} (large : 0x10000 ≤ c.toNat) :
    (0xD800 ≤ highSurrogate c.toNat ∧ highSurrogate c.toNat < 0xDC00) ∧
      0xDC00 ≤ lowSurrogate c.toNat ∧ lowSurrogate c.toNat < 0xE000 := by
  have valid := scalar_value c
  unfold highSurrogate lowSurrogate
  omega

theorem join_units_pair {c : Char} (large : 0x10000 ≤ c.toNat) (more : List Nat) :
    joinUnits ([highSurrogate c.toNat, lowSurrogate c.toNat] ++ more) =
      (joinUnits more).map (c :: ·) := by
  have ranges := surrogate_ranges large
  have high : isHigh (highSurrogate c.toNat) = true := by simpa [isHigh] using ranges.1
  have low : isLow (lowSurrogate c.toNat) = true := by simpa [isLow] using ranges.2
  have code : 0x10000 + (highSurrogate c.toNat - 0xD800) * 0x400 +
      (lowSurrogate c.toNat - 0xDC00) = c.toNat := by
    unfold highSurrogate lowSurrogate
    omega
  simp [joinUnits, high, low, code]

theorem take_units_number {quote : Char} {unit : Nat} (small : unit < 0x10000) (rest : List Char) :
    takeUnits quote (unitEscape unit ++ rest) =
      (takeUnits quote rest).map (Prod.map (unit :: ·) id) := by
  have value : hexValue? (hex 4 unit) = some unit := hex_value_hex small
  have length := length_hex 4 unit
  unfold unitEscape
  match hex 4 unit, value, length with
  | [a, b, c, d], value, _ =>
    simp only [List.cons_append, List.nil_append, takeUnits, value, Option.bind_some]

theorem take_units_escaped {quote letter c : Char} (escaped : escapedChar? quote letter = some c)
    (other : letter ≠ 'u') (rest : List Char) :
    takeUnits quote ('\\' :: letter :: rest) =
      (takeUnits quote rest).map (Prod.map (c.toNat :: ·) id) := by
  rw [takeUnits.eq_3 _ _ _ fun _ _ _ _ _ same => absurd same other, escaped, Option.bind_some]

theorem take_units_plain {quote c : Char} (mark : c ≠ quote) (slash : c ≠ '\\')
    (visible : 0x20 ≤ c.toNat) (rest : List Char) :
    takeUnits quote (c :: rest) = (takeUnits quote rest).map (Prod.map (c.toNat :: ·) id) := by
  have refused : ¬ (c = '\\' ∨ c.toNat < 0x20) := not_or.mpr ⟨slash, by omega⟩
  rw [takeUnits.eq_4 _ _ _ (fun _ _ _ _ _ same => absurd same slash)
    fun _ _ same => absurd same slash, if_neg mark, if_neg refused]

theorem reads_as_single {quote c : Char} {spelling : List Char}
    (taken : ∀ rest, takeUnits quote (spelling ++ rest) =
      (takeUnits quote rest).map (Prod.map (c.toNat :: ·) id)) : ReadsAs quote spelling c :=
  ⟨[c.toNat], taken, join_units_char c⟩

theorem number_escape_reads (quote c : Char) : ReadsAs quote (numberEscape c) c := by
  unfold numberEscape
  split
  · rename_i small
    exact reads_as_single (take_units_number small)
  · rename_i large
    have large : 0x10000 ≤ c.toNat := by omega
    have ranges := surrogate_ranges large
    refine ⟨[highSurrogate c.toNat, lowSurrogate c.toNat], ?_, join_units_pair large⟩
    intro rest
    have high : highSurrogate c.toNat < 0x10000 := by omega
    have low : lowSurrogate c.toNat < 0x10000 := by omega
    rw [List.append_assoc, take_units_number high, take_units_number low, Option.map_map]
    rfl

def controls : List (Char × Char) :=
  [('\x08', 'b'), ('\t', 't'), ('\n', 'n'), ('\x0c', 'f'), ('\r', 'r')]

theorem control_letter_listed {c letter : Char} (control : controlLetter? c = some letter) :
    (c, letter) ∈ controls := by
  unfold controlLetter? at control
  repeat' split at control
  all_goals cases control <;> simp_all [controls]

theorem control_letter_undone {c letter : Char} (control : controlLetter? c = some letter) :
    letterControl? letter = some c ∧ letter ∈ ['b', 't', 'n', 'f', 'r'] := by
  have undone : ∀ pair ∈ controls,
      letterControl? pair.2 = some pair.1 ∧ pair.2 ∈ ['b', 't', 'n', 'f', 'r'] := by decide
  exact undone _ (control_letter_listed control)

def IsQuote (quote : Char) : Prop := quote = '"' ∨ quote = '\''

theorem escaped_letter {quote c letter : Char} (mark : IsQuote quote)
    (control : controlLetter? c = some letter) :
    escapedChar? quote letter = some c ∧ letter ≠ 'u' := by
  obtain ⟨undone, letters⟩ := control_letter_undone control
  have other : ∀ d ∈ ['b', 't', 'n', 'f', 'r'],
      ¬ (d = '"' ∨ d = '\\' ∨ d = '/') ∧ ¬ (d = '\'' ∨ d = '\\' ∨ d = '/') ∧ d ≠ 'u' := by simp
  obtain ⟨double, single, plain⟩ := other letter letters
  refine ⟨?_, plain⟩
  rcases mark with rfl | rfl
  · rw [escapedChar?, if_neg double, undone]
  · rw [escapedChar?, if_neg single, undone]

theorem escaped_mark {quote c : Char} (mark : IsQuote quote) (special : c = quote ∨ c = '\\') :
    escapedChar? quote c = some c ∧ c ≠ 'u' := by
  refine ⟨if_pos (special.imp_right .inl), ?_⟩
  rcases special with rfl | rfl
  · rcases mark with rfl | rfl <;> decide
  · decide

theorem literal_char_reads {quote : Char} {plain : Char → Bool} (mark : IsQuote quote)
    (visible : ∀ c, plain c = true → 0x20 ≤ c.toNat) (c : Char) :
    ReadsAs quote (literalChar quote plain c) c := by
  unfold literalChar
  split
  · rename_i special
    obtain ⟨escaped, other⟩ := escaped_mark mark special
    exact reads_as_single (take_units_escaped escaped other)
  · rename_i special
    obtain ⟨ends, slash⟩ := not_or.mp special
    split
    · rename_i letter control
      obtain ⟨escaped, other⟩ := escaped_letter mark control
      exact reads_as_single (take_units_escaped escaped other)
    · split
      · rename_i printed
        exact reads_as_single (take_units_plain ends slash (visible c printed))
      · exact number_escape_reads quote c

theorem take_units_close {quote : Char} (mark : IsQuote quote) (rest : List Char) :
    takeUnits quote (quote :: rest) = some ([], rest) := by
  have slash : quote ≠ '\\' := by rcases mark with rfl | rfl <;> decide
  rw [takeUnits.eq_4 _ _ _ (fun _ _ _ _ _ same => absurd same slash)
    fun _ _ same => absurd same slash, if_pos rfl]

theorem take_units_text {quote : Char} {plain : Char → Bool} (mark : IsQuote quote)
    (visible : ∀ c, plain c = true → 0x20 ≤ c.toNat) (text rest : List Char) :
    ∃ units, takeUnits quote (text.flatMap (literalChar quote plain) ++ quote :: rest) =
      some (units, rest) ∧ joinUnits units = some text := by
  induction text with
  | nil => exact ⟨[], take_units_close mark rest, rfl⟩
  | cons c text ih =>
    obtain ⟨first, taken, joined⟩ := literal_char_reads mark visible c
    obtain ⟨more, behind, others⟩ := ih
    refine ⟨first ++ more, ?_, ?_⟩
    · rw [List.flatMap_cons, List.append_assoc, taken, behind]
      rfl
    · rw [joined, others]
      rfl

theorem take_literal_text {quote : Char} {plain : Char → Bool} (mark : IsQuote quote)
    (visible : ∀ c, plain c = true → 0x20 ≤ c.toNat) (text rest : List Char) :
    takeLiteral quote (text.flatMap (literalChar quote plain) ++ quote :: rest) =
      some (text, rest) := by
  obtain ⟨units, taken, joined⟩ := take_units_text mark visible text rest
  rw [takeLiteral, taken]
  exact congrArg (Option.map (·, rest)) joined

end Text

namespace Json

theorem next_string (s : String) (rest : List Char) :
    Token.next? (stringText s ++ rest) = some (some (.string s.toList), rest) := by
  have visible : ∀ c, isPlain c = true → 0x20 ≤ c.toNat := by
    intro c plain
    simp only [isPlain, Bool.and_eq_true, decide_eq_true_eq] at plain
    exact plain.1
  have taken := Text.take_literal_text (.inl rfl) visible s.toList rest
  simp only [stringText, Text.literal, List.cons_append, List.append_assoc, List.nil_append]
  rw [Token.next?, if_neg (by decide), if_pos rfl, taken]
  rfl

theorem decode_string (s : String) : decode (encode (.string s)) = some (.string s) := by
  have first := next_string s []
  rw [List.append_nil] at first
  have tokens : Token.ofText (stringText s) = some [.string s.toList] := by
    rw [Token.ofText]
    split
    · simp_all
    · simp_all
    · rename_i token after found
      rw [first] at found
      cases found
      rw [Token.ofText]
      rfl
  have spelled : (encode (.string s)).toList = stringText s := String.toList_ofList
  rw [decode, decodeChars, spelled, tokens, Option.bind_some]
  simp [ofTokens, Expecting.step, startValue]

end Json
end Stencil
