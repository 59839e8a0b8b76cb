import Stencil.Diagnostic
import Stencil.Proofs.Text.Line

/-!
Messages with a caret. Quoted texts and numbers stay on one line, so a message of one line that
has a place in a text takes five lines, and the caret in the last of them is as far from the left
as the column in the one above it.
-/
namespace Stencil

namespace Text

theorem unprinted_of_ends_line {c : Char} (ends : endsLine c = true) : isPrinted c = false := by
  simpa using of_ends_line (p := fun d => !isPrinted d) (by decide +kernel) ends

theorem hex_one_line (width n : Nat) : OneLine (hex width n) := by
  induction width generalizing n with
  | zero => simp [hex, OneLine]
  | succ width ih =>
    have digit : ∀ d < 16, endsLine (Nat.digitChar d) = false := by decide
    have last : OneLine [Nat.digitChar (n % 16)] := by
      simpa [OneLine] using digit _ (Nat.mod_lt n (by decide))
    exact one_line_append.mpr ⟨ih _, last⟩

theorem escape_one_line {letter : Char} (plain : endsLine letter = false) (width n : Nat) :
    OneLine ('\\' :: letter :: hex width n) :=
  List.forall_mem_cons.mpr ⟨rfl, List.forall_mem_cons.mpr ⟨plain, hex_one_line width n⟩⟩

theorem quoted_char_one_line {quote : Char} (plain : endsLine quote = false) (c : Char) :
    OneLine (quotedChar quote c) := by
  unfold quotedChar
  split
  · rename_i special
    have own : endsLine c = false := by
      rcases special with rfl | rfl
      · exact plain
      · rfl
    exact List.forall_mem_cons.mpr ⟨rfl, by simpa using own⟩
  split
  · decide
  split
  · decide
  split
  · decide
  split
  · rename_i printed
    cases ends : endsLine c with
    | false => simpa [OneLine] using ends
    | true => simp [unprinted_of_ends_line ends] at printed
  split
  · exact escape_one_line rfl 2 c.toNat
  split
  · exact escape_one_line rfl 4 c.toNat
  · exact escape_one_line rfl 8 c.toNat

theorem quoted_one_line (text : List Char) : OneLine (quoted text) := by
  have plain : endsLine (quoteFor text) = false := by
    unfold quoteFor
    split <;> rfl
  have chars : OneLine (text.flatMap (quotedChar (quoteFor text))) := by
    intro c member
    obtain ⟨d, _, inside⟩ := List.mem_flatMap.mp member
    exact quoted_char_one_line plain d c inside
  have quote : OneLine [quoteFor text] := by simpa [OneLine] using plain
  exact one_line_append.mpr ⟨quote, one_line_append.mpr ⟨chars, quote⟩⟩

theorem one_line_join {first second : String} (one : OneLine first.toList)
    (two : OneLine second.toList) : OneLine (first ++ second).toList := by
  rw [String.toList_append]
  exact one_line_append.mpr ⟨one, two⟩

theorem quoted_text_one_line (text : List Char) :
    OneLine (String.ofList (quoted text)).toList := by
  rw [String.toList_ofList]
  exact quoted_one_line text

def feedLines : List (List Char) → List (List Char)
  | [] => []
  | [line] => [line]
  | line :: next :: lines => (line ++ ['\n']) :: feedLines (next :: lines)

theorem split_lines_joined {lines : List (List Char)} (plain : ∀ line ∈ lines, OneLine line)
    (full : lines.getLast? ≠ some []) :
    splitLines (['\n'].intercalate lines) = feedLines lines := by
  induction lines using feedLines.induct with
  | case1 => rfl
  | case2 line =>
    rw [List.intercalate_singleton, feedLines]
    exact split_lines_single (plain line (by simp)) (by simpa using full)
  | case3 line next lines ih =>
    obtain ⟨first, others⟩ := List.forall_mem_cons.mp plain
    rw [List.intercalate_cons_cons, feedLines, List.append_assoc, ← ih others (by simpa using full)]
    exact split_lines_ended first _

end Text

open Text (OneLine)

theorem digits_one_line (n : Nat) : OneLine (Nat.toDigits 10 n) := by
  intro c member
  have digit := Nat.isDigit_of_mem_toDigits (by decide) (by decide) member
  cases ends : Text.endsLine c with
  | false => rfl
  | true =>
    have other := Text.of_ends_line (p := fun d => !d.isDigit) (by decide) ends
    simp [digit] at other

theorem integer_text_one_line (n : Int) : OneLine (integerText n) := by
  unfold integerText signText
  split
  · exact List.forall_mem_cons.mpr ⟨rfl, digits_one_line _⟩
  · exact digits_one_line _

namespace Diagnostic

theorem spaces_one_line (count : Nat) : OneLine (spaces count).toList := by
  intro c member
  rw [spaces, String.toList_ofList] at member
  rw [List.eq_of_mem_replicate member]
  rfl

theorem caret_lines_plain {message : String} {place : Text.Place} (plain : OneLine message.toList)
    (current : OneLine place.current) :
    ∀ line ∈ (caretLines message place).map String.toList, OneLine line := by
  have quoted := Text.quoted_one_line place.current
  have number := integer_text_one_line place.line
  have column := integer_text_one_line place.column
  have margin := spaces_one_line (String.ofList (integerText place.line)).length
  have under := spaces_one_line place.column.toNat
  obtain ⟨arrow, colon, bar, behind, caret⟩ : OneLine " -> ".toList ∧ OneLine ":".toList ∧
      OneLine " |".toList ∧ OneLine " | ".toList ∧ OneLine "^ ".toList := by decide
  simp only [caretLines, List.map_cons, List.map_nil, List.forall_mem_cons, String.toList_append,
    String.toList_ofList, Text.one_line_append]
  exact ⟨plain, ⟨⟨⟨⟨⟨⟨margin, arrow⟩, quoted⟩, colon⟩, number⟩, colon⟩, column⟩, ⟨margin, bar⟩,
    ⟨⟨number, behind⟩, current⟩, ⟨⟨⟨⟨margin, behind⟩, under⟩, caret⟩, plain⟩, by simp⟩

def caretMargin (place : Text.Place) : List Char :=
  List.replicate (integerText place.line).length ' ' ++ [' ', '|', ' '] ++
    List.replicate place.column.toNat ' '

theorem caret_margin_length (place : Text.Place) :
    (caretMargin place).length = (integerText place.line).length + 3 + place.column.toNat := by
  simp only [caretMargin, List.length_append, List.length_replicate]
  rfl

theorem caret_not_in_margin (place : Text.Place) : '^' ∉ caretMargin place := by
  simp [caretMargin]

theorem caret_lines_spelled (message : String) (place : Text.Place) :
    ∃ first second third, (caretLines message place).map String.toList = [first, second, third,
      integerText place.line ++ [' ', '|', ' '] ++ place.current,
      caretMargin place ++ '^' :: ' ' :: message.toList] := by
  simp only [caretLines, List.map_cons, List.map_nil, String.toList_append, String.toList_ofList,
    String.length_ofList, spaces, caretMargin, List.append_assoc, List.cons.injEq]
  exact ⟨_, _, _, rfl, rfl, rfl, rfl, rfl, trivial⟩

/-- A text of five lines: the fourth shows the line of a place behind its number, and the caret of
the fifth is under the column. -/
def PointsAt (text : List Char) (place : Text.Place) : Prop :=
  ∃ first second third margin tail,
    Text.splitLines text = [first, second, third,
      integerText place.line ++ [' ', '|', ' '] ++ place.current ++ ['\n'], margin ++ '^' :: tail] ∧
    '^' ∉ margin ∧ margin.length = (integerText place.line).length + 3 + place.column.toNat

theorem caret_text_points {message source : String} {index : Int} {place : Text.Place}
    (placed : Text.place? source.toList index = some place) (plain : OneLine message.toList)
    (current : OneLine place.current) : PointsAt (caretText message source index).toList place := by
  have joined : (caretText message source index).toList =
      ['\n'].intercalate ((caretLines message place).map String.toList) := by
    rw [caretText, placed]
    exact String.toList_intercalate
  have each := caret_lines_plain plain current
  obtain ⟨first, second, third, spelled⟩ := caret_lines_spelled message place
  rw [spelled] at joined each
  have split := Text.split_lines_joined each (by simp)
  rw [← joined] at split
  exact ⟨first ++ ['\n'], second ++ ['\n'], third ++ ['\n'], caretMargin place, _, split,
    caret_not_in_margin place, caret_margin_length place⟩

end Diagnostic
end Stencil
