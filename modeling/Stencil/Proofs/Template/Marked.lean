import Stencil.Proofs.Marker.Enclosed
import Stencil.Template.Compile

/-!
Templates of one marker. Where its path text compiles they come to the node of that path, and else
they are refused at their first brace.
-/
namespace Stencil.Template

open Marker

variable {π : Type} {language : PathLanguage π} {text : String}

theorem of_string_refused {source reason : String} {reading : π → Reading π}
    (reads : ReadsPath language.compile source text reading)
    (refused : language.compile (unescapeString text) = .error reason) :
    ofValue language (.string source) =
      .error (.malformed ⟨.invalidPath (unescapeString text) reason, source, 0⟩) := by
  simp only [Value.string, ofValue, ofString, reads.refused reason refused]

section Compiled

variable {path : π} (enclosable : Enclosable false text.toList)
  (compiled : language.compile (unescapeString text) = .ok path)
include enclosable compiled

theorem of_path_marker (plain : NoOperator text.toList) :
    ofValue language (.string (pathMarker text)) = .ok (.interpolation [.path path]) := by
  have reads := path_marker_reads language.compile enclosable plain
  simp only [Value.string, ofValue, ofString, reads.compiled path compiled]

theorem of_raw_marker :
    ofValue language (.string (wholeMarker .raw text)) = .ok (.raw path) := by
  have reads := whole_marker_reads language.compile .raw (enclosable.of_double _)
  simp only [Value.string, ofValue, ofString, reads.compiled path compiled]

theorem of_unquote_marker :
    ofValue language (.string (wholeMarker .unquote text)) = .ok (.unquote path) := by
  have reads := whole_marker_reads language.compile .unquote (enclosable.of_double _)
  simp only [Value.string, ofValue, ofString, reads.compiled path compiled]

theorem of_section_marker :
    keyOf language (.string (wholeMarker .sectionOf text)) = .ok (.sectionOf path) := by
  have reads := whole_marker_reads language.compile .sectionOf (enclosable.of_double _)
  simp only [keyOf, reads.compiled path compiled]

end Compiled
end Stencil.Template
