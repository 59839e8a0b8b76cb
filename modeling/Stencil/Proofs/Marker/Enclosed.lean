import Stencil.Proofs.Marker.Spelling

/-!
A path text between the braces of a marker. A text in which the closing braces do not occur, and
which does not end with one of them, is the whole body of its marker, whatever marker that is; so
all markers read it as one path text, with its escapes undone, and compile the same path from it.
-/
namespace Stencil.Marker

variable {π : Type} (compile : String → Except String π)

def unescape : List Char → List Char
  | '\\' :: '{' :: '{' :: '{' :: rest => '{' :: '{' :: '{' :: unescape rest
  | '\\' :: '{' :: '{' :: rest => '{' :: '{' :: unescape rest
  | c :: rest => c :: unescape rest
  | [] => []

def unescapeString (s : String) : String := String.ofList (unescape s.toList)

def wholeMarker (kind : Kind) (text : String) : String :=
  String.ofList (opener kind ++ (text.toList ++ closer (kind = .raw)))

def pathMarker (text : String) : String :=
  String.ofList ('{' :: '{' :: (text.toList ++ closer false))

theorem Enclosable.of_double {text : List Char} (enclosable : Enclosable false text)
    (triple : Bool) : Enclosable triple text := by
  constructor
  · intro inner
    apply enclosable.1
    have shorter : closer false <:+: closer triple := by cases triple <;> decide
    exact shorter.trans inner
  · exact enclosable.2

theorem closing_run_of_text {n : Nat} {text tail : List Char} (full : text ≠ [])
    (last : text.getLast? ≠ some '}') (run : List.replicate n '}' <+: text ++ tail) :
    List.replicate n '}' <+: text := by
  have front : text <+: text ++ tail := List.prefix_append text tail
  by_cases short : (List.replicate n '}').length ≤ text.length
  · exact List.prefix_of_prefix_length_le run front short
  · have inside : text <+: List.replicate n '}' :=
      List.prefix_of_prefix_length_le front run (by omega)
    have brace : text.getLast full = '}' :=
      List.eq_of_mem_replicate (inside.subset (List.getLast_mem full))
    exact absurd (by rw [List.getLast?_eq_some_getLast full, brace]) last

theorem escape2_enclosed {triple : Bool} {rest after : List Char}
    (single : rest.head? ≠ some '{') :
    Piece.escape2.Fits (closer triple <+: ·) (rest ++ (closer triple ++ after)) := by
  cases rest with
  | nil => cases triple <;> simp [Piece.Fits, closer]
  | cons c rest => simpa [Piece.Fits] using single

theorem char_enclosed {triple : Bool} {c : Char} {rest after : List Char}
    (enclosable : Enclosable triple (c :: rest))
    (plain : ∀ tail, c = '\\' → rest ≠ '{' :: '{' :: tail) :
    (Piece.char c).Fits (closer triple <+: ·) (rest ++ (closer triple ++ after)) := by
  constructor
  · intro begins
    obtain ⟨more, spelled⟩ := begins
    simp only [List.cons_append, List.nil_append, List.cons.injEq] at spelled
    obtain ⟨rfl, braces⟩ := spelled
    match rest with
    | [] => cases triple <;> simp [closer] at braces
    | [d] => cases triple <;> simp [closer] at braces
    | d :: e :: tail =>
      simp only [List.cons_append, List.cons.injEq] at braces
      exact plain tail rfl (by rw [← braces.1, ← braces.2.1])
  · intro closes
    rw [closer_eq, ← List.cons_append] at closes
    have within := closing_run_of_text (List.cons_ne_nil c rest) enclosable.2 closes
    rw [← closer_eq] at within
    exact enclosable.1 within.isInfix

theorem take_body_enclosed {triple : Bool} {text : List Char} (after : List Char)
    (enclosable : Enclosable triple text) :
    takeBody? triple (text ++ (closer triple ++ after)) = some (unescape text, after) := by
  fun_induction unescape text with
  | case1 rest ih =>
    have fits : Piece.escape3.Fits (closer triple <+: ·) (rest ++ (closer triple ++ after)) :=
      trivial
    have read := take_body_piece fits
    rw [ih enclosable.rest.rest.rest.rest] at read
    simpa [Piece.spelling, Piece.meaning] using read
  | case2 rest single ih =>
    have fits : Piece.escape2.Fits (closer triple <+: ·) (rest ++ (closer triple ++ after)) :=
      escape2_enclosed (head_ne_brace single)
    have read := take_body_piece fits
    rw [ih enclosable.rest.rest.rest] at read
    simpa [Piece.spelling, Piece.meaning] using read
  | case3 c rest three two ih =>
    have plain (tail : List Char) (slash : c = '\\') : rest ≠ '{' :: '{' :: tail :=
      two tail slash
    have fits : (Piece.char c).Fits (closer triple <+: ·) (rest ++ (closer triple ++ after)) :=
      char_enclosed enclosable plain
    have read := take_body_piece fits
    rw [ih enclosable.rest] at read
    simpa [Piece.spelling, Piece.meaning] using read
  | case4 => simpa using take_body_close triple after

theorem scan_fails_at_start {source : String} {cause : Cause}
    (failed : run compile ⟨.start, source.toList⟩ = .error (cause, source.toList)) :
    scan compile source = .error ⟨cause, source, 0⟩ := by
  simp [scan, failed, String.length_toList]

/-- The string is read by the text of a path alone: as the reading made from the path, or with the
fault that the text is no path, at the first brace. -/
structure ReadsPath (source text : String) (reading : π → Reading π) : Prop where
  compiled : ∀ path, compile (unescapeString text) = .ok path →
    scan compile source = .ok (reading path)
  refused : ∀ reason, compile (unescapeString text) = .error reason →
    scan compile source = .error ⟨.invalidPath (unescapeString text) reason, source, 0⟩

theorem whole_marker_reads (kind : Kind) {text : String}
    (enclosable : Enclosable (kind = .raw) text.toList) :
    ReadsPath compile (wholeMarker kind text) text (.whole kind) := by
  have opens : takeOpener? (wholeMarker kind text).toList =
      some (kind, text.toList ++ closer (kind = .raw)) := by
    rw [wholeMarker, String.toList_ofList]
    exact take_opener_iff.mpr rfl
  have closed := take_body_enclosed [] enclosable
  rw [List.append_nil] at closed
  constructor
  · intro path compiled
    rw [scan_ok_iff, run_start_whole opens, run_body_closed (step_whole _ _ _) closed compiled,
      run_closed_end]
  · intro reason refused
    apply scan_fails_at_start
    rw [run_start_whole opens, run_body_refused (step_whole _ _ _) closed refused]
    rfl

theorem path_marker_reads {text : String} (enclosable : Enclosable false text.toList)
    (plain : NoOperator text.toList) :
    ReadsPath compile (pathMarker text) text fun path => .interpolation [.path path] := by
  have spelled : (pathMarker text).toList = '{' :: '{' :: (text.toList ++ closer false) :=
    String.toList_ofList
  have inside : NoOperator (text.toList ++ closer false) := by
    cases shape : text.toList with
    | nil => simp [NoOperator, closer]
    | cons c rest =>
      rw [shape] at plain
      simpa [NoOperator] using plain
  have taken : takeText (pathMarker text).toList =
      ([], '{' :: '{' :: (text.toList ++ closer false)) := by
    rw [spelled]
    exact take_text_path ⟨_, rfl, inside⟩
  have plain_start : takeOpener? (pathMarker text).toList = none := by
    rw [spelled]
    exact no_opener_of_no_operator inside
  have closed := take_body_enclosed [] enclosable
  rw [List.append_nil] at closed
  constructor
  · intro path compiled
    rw [scan_ok_iff, run_start_text plain_start, run_text_path taken,
      run_body_closed (step_path _ _ _) closed compiled, run_text_end rfl]
    rfl
  · intro reason refused
    apply scan_fails_at_start
    rw [run_start_text plain_start, run_text_path taken,
      run_body_refused (step_path _ _ _) closed refused, spelled]
    rfl

end Stencil.Marker
