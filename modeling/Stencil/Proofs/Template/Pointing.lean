import Mathlib.Data.List.Permutation
import Stencil.Path.Verbatim
import Stencil.Proofs.Diagnostic
import Stencil.Proofs.Marker.Closing
import Stencil.Proofs.Template.Placement

/-!
Where the messages of malformed templates point. A fault is about braces of its string, and these
are not blank, so the line that shows the fault still holds them when the blanks at its end are
gone. The message has its place there, however the lines of the string end.
-/
namespace Stencil.Template

open Marker (scan scan_refuses scan_shows)
open Text (CoveringLine OneLine Place)

variable {π : Type}

/-- A place that shows a single line, with the column in it or right behind it. -/
structure InLine (place : Place) : Prop where
  nonneg : 0 ≤ place.column
  within : place.column ≤ place.current.length
  plain : OneLine place.current

def ShowsCause (source : String) (index : Nat) (place : Place) : Marker.Cause → Prop
  | .unterminated => ['{', '{'] <+: place.current.drop place.column.toNat
  | .invalidPath _ _ => ['{', '{'] <+: place.current.drop place.column.toNat
  | .trailing c => 0 < place.column ∧ place.current[place.column.toNat - 1]? = some '}' ∧
      source.toList[index]? = some c

theorem covering_line_plain {before rest start tail : List Char} {earlier later : List (List Char)}
    (line : CoveringLine before rest earlier later start tail) :
    OneLine (Text.trimEnd (start ++ tail)) :=
  Text.trimmed_line (by rw [line.split]; simp)

theorem full_of_opens {opened : List Char} (opens : ['{', '{'] <+: opened) : opened ≠ [] := by
  rintro rfl
  simp at opens

theorem opened_place (before : List Char) {opened : List Char} (opens : ['{', '{'] <+: opened) :
    ∃ place, Text.place? (before ++ opened) before.length = some place ∧ InLine place ∧
      ['{', '{'] <+: place.current.drop place.column.toNat := by
  obtain ⟨inside, rfl⟩ := opens
  have full : ['{', '{'] ++ inside ≠ [] := by simp
  obtain ⟨earlier, later, start, tail, line⟩ := Text.covering_line before full
  have plain := covering_line_plain line
  obtain ⟨more, rfl⟩ := Text.covering_line_continues line rfl
  have first := Text.trim_end_visible start (c := '{') rfl ('{' :: more)
  have second := Text.trim_end_visible [] (c := '{') rfl more
  rw [List.nil_append, List.nil_append] at second
  rw [second] at first
  refine ⟨_, line.placed, ⟨Int.natCast_nonneg _, ?_, plain⟩, ?_⟩
  · simp only [first, List.length_append]
    omega
  · simp [first]

theorem closed_place (before : List Char) {rest : List Char} (full : rest ≠ []) :
    ∃ place, Text.place? (before ++ '}' :: rest) (before.length + 1) = some place ∧ InLine place ∧
      0 < place.column ∧ place.current[place.column.toNat - 1]? = some '}' := by
  obtain ⟨earlier, later, start, tail, line⟩ := Text.covering_line (before ++ ['}']) full
  have plain := covering_line_plain line
  -- what follows may end a line or be blank, but the brace before it is on the same line
  obtain ⟨more, rfl⟩ := Text.covering_line_begun line rfl
  have kept := Text.trim_end_visible more (c := '}') rfl tail
  have placed := line.placed
  simp only [List.append_assoc, List.singleton_append, List.length_append,
    List.length_singleton] at placed plain
  rw [kept] at placed plain
  refine ⟨_, placed, ⟨Int.natCast_nonneg _, ?_, plain⟩, by simp, by simp⟩
  simp only [List.length_append, List.length_cons]
  omega

theorem fault_place {s : String} {fault : Marker.Fault} {compile : String → Except String π}
    (failed : scan compile s = .error fault) :
    fault.index < fault.source.length ∧
      ∃ place, Text.place? fault.source.toList fault.index = some place ∧ InLine place ∧
        ShowsCause fault.source fault.index place fault.cause := by
  obtain ⟨rfl, before, rest, spelled, length, shows⟩ := scan_shows failed
  obtain ⟨cause, source, index⟩ := fault
  simp only at spelled length shows ⊢
  subst length
  have inside (full : rest ≠ []) : before.length < source.length := by
    have positive := List.length_pos_iff.mpr full
    rw [← String.length_toList, spelled, List.length_append]
    omega
  cases cause with
  | trailing c =>
    obtain ⟨behind, more, rfl⟩ := shows
    obtain ⟨front, closed⟩ := behind
    rw [spelled, List.append_cons] at closed
    have same := List.append_cancel_right closed
    subst same
    obtain ⟨place, placed, within, column, brace⟩ := closed_place front (List.cons_ne_nil c more)
    refine ⟨inside (by simp), place, ?_, within, column, brace, by simp [spelled]⟩
    rw [spelled]
    simpa using placed
  | unterminated =>
    obtain ⟨place, placed, within, braces⟩ := opened_place before shows.2
    exact ⟨inside (full_of_opens shows.2), place, spelled ▸ placed, within, braces⟩
  | invalidPath text reason =>
    obtain ⟨place, placed, within, braces⟩ := opened_place before shows.2
    exact ⟨inside (full_of_opens shows.2), place, spelled ▸ placed, within, braces⟩

theorem cause_message_one_line {cause : Marker.Cause}
    (plain : ∀ text reason, cause = .invalidPath text reason → OneLine reason.toList) :
    OneLine cause.message.toList := by
  cases cause with
  | unterminated => decide
  | trailing c =>
    have words : OneLine "unexpected ".toList ∧ OneLine " after marker".toList := by decide
    exact Text.one_line_join (Text.one_line_join words.1 (Text.quoted_text_one_line [c])) words.2
  | invalidPath text reason =>
    have words : OneLine "invalid path ".toList ∧ OneLine ": ".toList := by decide
    have quoted := Text.quoted_text_one_line (Text.trim text.toList)
    exact Text.one_line_join (Text.one_line_join (Text.one_line_join words.1 quoted) words.2)
      (plain text reason rfl)

def OneLineReasons (language : PathLanguage π) : Prop :=
  ∀ text reason, language.compile text = .error reason → OneLine reason.toList

/-- The message of a malformed template is five lines that point at the fault, and the line they
show is the one with the braces that the fault is about. -/
theorem malformed_template_pointed_at (language : PathLanguage π)
    (reasons : OneLineReasons language) (template : Value) (fault : Marker.Fault)
    (failed : ofValue language template = .error (.malformed fault)) :
    fault.index < fault.source.length ∧
      ∃ place, Text.place? fault.source.toList fault.index = some place ∧
        0 ≤ place.column ∧ place.column ≤ place.current.length ∧
        ShowsCause fault.source fault.index place fault.cause ∧
        Diagnostic.PointsAt (CompileFault.malformed fault).message.toList place := by
  obtain ⟨s, scanned⟩ := malformed_scanned language (first_fault_of_error language failed)
  obtain ⟨index, place, placed, within, shows⟩ := fault_place scanned
  have message : OneLine fault.cause.message.toList :=
    cause_message_one_line fun text reason invalid =>
      reasons text reason (scan_refuses scanned invalid)
  exact ⟨index, place, placed, within.nonneg, within.within, shows,
    Diagnostic.caret_text_points placed message within.plain⟩

theorem malformed_template_pointed_at_on_second_line :
    OneLineReasons Path.Verbatim.language ∧
    ofValue Path.Verbatim.language (.string "one\r\ntwo \x7b\x7ba!\x7d\x7d \u2028three") =
      .error (.malformed
        ⟨.invalidPath "a!" "nope", "one\r\ntwo \x7b\x7ba!\x7d\x7d \u2028three", 9⟩) ∧
    Diagnostic.PointsAt
      (CompileFault.malformed
        ⟨.invalidPath "a!" "nope", "one\r\ntwo \x7b\x7ba!\x7d\x7d \u2028three", 9⟩).message.toList
      ⟨2, 4, "two \x7b\x7ba!\x7d\x7d".toList⟩ := by
  have reasons : OneLineReasons Path.Verbatim.language := by
    intro text reason refused
    simp only [Path.Verbatim.language, Path.Verbatim.compile] at refused
    split at refused
    · cases refused
      decide
    · contradiction
  have failed : ofValue Path.Verbatim.language
      (.string "one\r\ntwo \x7b\x7ba!\x7d\x7d \u2028three") = .error (.malformed
        ⟨.invalidPath "a!" "nope", "one\r\ntwo \x7b\x7ba!\x7d\x7d \u2028three", 9⟩) := by cbv
  have found : Text.place? "one\r\ntwo \x7b\x7ba!\x7d\x7d \u2028three".toList 9 =
      some ⟨2, 4, "two \x7b\x7ba!\x7d\x7d".toList⟩ := by decide
  obtain ⟨_, place, placed, _, _, _, points⟩ :=
    malformed_template_pointed_at Path.Verbatim.language reasons _ _ failed
  have same := placed.symm.trans found
  cases same
  exact ⟨reasons, failed, points⟩

end Stencil.Template
