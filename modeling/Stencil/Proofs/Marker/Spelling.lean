import Mathlib.Data.List.DropRight
import Stencil.Proofs.Marker.Expressible

/-!
A spelling for everything that template strings can express. Text is escaped, but braces at its
end are left to stand before those of a path: the scanner takes the last two of them as the
opener. Three braces or more have the first three escaped, so that the text may begin with them.
-/
namespace Stencil.Marker

variable {π : Type} {compile : String → Except String π}

def spellBraces (n : Nat) : List Char :=
  if 3 ≤ n then '\\' :: List.replicate n '{' else List.replicate n '{'

def escapeBefore (text : List Char) : List Char :=
  escape (text.rdropWhile (· = '{')) ++ spellBraces (text.rtakeWhile (· = '{')).length

def spellPath (path : String) : List Char := '{' :: '{' :: (escape path.toList ++ ['}', '}'])

def spellTokens : List (Token String) → List Char
  | [] => []
  | [.text s] => escape s.toList
  | .text s :: tokens => escapeBefore s.toList ++ spellTokens tokens
  | .path path :: tokens => spellPath path ++ spellTokens tokens

theorem brace_run (text : List Char) :
    ∃ front n, text = front ++ List.replicate n '{' ∧ front.getLast? ≠ some '{' ∧
      escapeBefore text = escape front ++ spellBraces n := by
  refine ⟨text.rdropWhile (· = '{'), (text.rtakeWhile (· = '{')).length, ?_, ?_, rfl⟩
  · have run : text.rtakeWhile (· = '{') =
        List.replicate (text.rtakeWhile (· = '{')).length '{' := by
      apply List.eq_replicate_length.mpr
      intro c member
      simpa using List.mem_rtakeWhile_imp member
    rw [← run, List.rdropWhile_append_rtakeWhile]
  · intro last
    have full := List.ne_nil_of_mem (List.mem_of_getLast? last)
    have other := List.rdropWhile_last_not _ _ full
    rw [List.getLast?_eq_some_getLast full] at last
    simp_all

theorem replicate_before_braces (n : Nat) (inside : List Char) :
    List.replicate n '{' ++ '{' :: '{' :: inside =
      '{' :: '{' :: (List.replicate n '{' ++ inside) := by
  induction n with
  | zero => rfl
  | succ n ih => simp [List.replicate_succ, ih]

theorem take_text_braces (n : Nat) {inside : List Char} (plain : NoOperator inside) :
    takeText (List.replicate n '{' ++ '{' :: '{' :: inside) =
      (List.replicate n '{', '{' :: '{' :: inside) := by
  induction n with
  | zero => exact take_text_path ⟨inside, rfl, plain⟩
  | succ n ih =>
    have fits : (Piece.char '{').Fits PathAhead (List.replicate n '{' ++ '{' :: '{' :: inside) := by
      refine ⟨by simp, ?_⟩
      rw [replicate_before_braces]
      intro ahead
      obtain ⟨others, equal, closed⟩ := ahead
      cases equal
      exact closed '{' rfl (by simp)
    have read := take_text_piece fits
    rw [ih] at read
    simpa [Piece.spelling, Piece.meaning, List.replicate_succ] using read

theorem take_text_spelled_braces (n : Nat) {inside : List Char} (plain : NoOperator inside) :
    takeText (spellBraces n ++ '{' :: '{' :: inside) =
      (List.replicate n '{', '{' :: '{' :: inside) := by
  unfold spellBraces
  split
  · rename_i long
    obtain ⟨n, rfl⟩ := Nat.exists_eq_add_of_le' long
    have fits : Piece.escape3.Fits PathAhead (List.replicate n '{' ++ '{' :: '{' :: inside) :=
      trivial
    have read := take_text_piece fits
    rw [take_text_braces n plain] at read
    simpa [Piece.spelling, Piece.meaning, List.replicate_succ] using read
  · exact take_text_braces n plain

theorem follow_of_apart {front : List Char} {n : Nat} (last : front.getLast? ≠ some '{')
    (apart : ¬ EndsEscaping (front ++ List.replicate n '{')) (inside : List Char) :
    MayFollow front (spellBraces n ++ '{' :: '{' :: inside) := by
  constructor
  · intro brace
    exact absurd brace last
  · intro slash
    obtain ⟨init, rfl⟩ := List.getLast?_eq_some_iff.mp slash
    unfold spellBraces
    split
    · simp
    · exfalso
      apply apart
      rcases n with _ | _ | _ | n
      · exact .inl ⟨init, by simp⟩
      · exact .inr (.inl ⟨init, by simp⟩)
      · exact .inr (.inr ⟨init, by simp⟩)
      · omega

theorem take_text_escape_before {text inside : List Char} (apart : ¬ EndsEscaping text)
    (plain : NoOperator inside) :
    takeText (escapeBefore text ++ '{' :: '{' :: inside) = (text, '{' :: '{' :: inside) := by
  obtain ⟨front, n, rfl, last, spelled⟩ := brace_run text
  rw [spelled, List.append_assoc, take_text_escape (follow_of_apart last apart inside),
    take_text_spelled_braces n plain]

theorem ends_escaping_cons {c : Char} {text : List Char} (ends : EndsEscaping (c :: text)) :
    text = [] ∨ text = ['{'] ∨ text = ['{', '{'] ∨ EndsEscaping text := by
  simp only [EndsEscaping, List.suffix_cons_iff, List.cons.injEq] at ends ⊢
  grind

theorem take_opener_escape_before {text : List Char} (full : text ≠ []) (one : text ≠ ['{'])
    (two : text ≠ ['{', '{']) (apart : ¬ EndsEscaping text) (inside : List Char) :
    takeOpener? (escapeBefore text ++ '{' :: '{' :: inside) = none := by
  obtain ⟨front, n, rfl, last, spelled⟩ := brace_run text
  have lastSlash : ('\\' :: front).getLast? ≠ some '{' := by
    cases front with
    | nil => simp
    | cons c front => simpa using last
  have apartSlash : ¬ EndsEscaping ('\\' :: front ++ List.replicate n '{') := by
    intro ends
    rcases ends_escaping_cons ends with short | short | short | ends
    · exact full short
    · exact one short
    · exact two short
    · exact apart ends
  have closed := escape_no_open (follow_of_apart lastSlash apartSlash inside)
  rw [take_opener_none_iff]
  intro kind opens
  have braces : ['{', '{'] <+: opener kind := by cases kind <;> simp [opener]
  rw [spelled, List.append_assoc] at opens
  exact closed (braces.trans opens)

theorem path_text_no_operator {path : List Char} (allowed : PathText path) (after : List Char) :
    NoOperator (escape path ++ '}' :: '}' :: after) := by
  unfold NoOperator
  fun_cases escape path with
  | case1 rest => simp
  | case2 rest => simp
  | case3 c rest _ single =>
    have sign : c ∉ ['&', '#', '?'] := allowed.no_sign c rfl
    have other : c ≠ '{' := by
      rintro rfl
      obtain ⟨more, equal⟩ := allowed.brace rfl
      cases equal
      exact single _ rfl rfl
    simpa [other] using sign
  | case4 => simp

theorem run_before_path {before : List (Token String)} {source text inside : List Char}
    (taken : takeText source = (text, '{' :: '{' :: inside)) (plain : NoOperator inside) :
    run .ok ⟨.text before, source⟩ =
      run .ok ⟨.text (pushText text before), '{' :: '{' :: inside⟩ := by
  rw [run_text_path taken, run_text_path (take_text_path ⟨inside, rfl, plain⟩)]
  rfl

theorem run_spelled_path {path : String} (allowed : PathText path.toList)
    (before : List (Token String)) (after : List Char) :
    run .ok ⟨.text before, spellPath path ++ after⟩ =
      run .ok ⟨.text (.path path :: before), after⟩ := by
  have plain := path_text_no_operator allowed after
  have closed : takeBody? false (escape path.toList ++ '}' :: '}' :: after) =
      some (path.toList, after) := take_body_escape allowed.enclosable
  have taken := take_text_path ⟨_, rfl, plain⟩
  simp only [spellPath, List.cons_append, List.append_assoc, List.nil_append] at taken ⊢
  rw [run_text_path taken, run_body_closed (step_path _ _ _) closed rfl, String.ofList_toList]
  rfl

theorem push_text_full {s : String} (full : s.toList ≠ []) (before : List (Token String)) :
    pushText s.toList before = .text s :: before := by
  simp [pushText, full]

theorem run_spelling {tokens : List (Token String)} (joined : WellJoined tokens)
    (before : List (Token String)) (reached : before ≠ [] ∨ ∃ path, .path path ∈ tokens) :
    run .ok ⟨.text before, spellTokens tokens⟩ =
      .ok (.interpolation (before.reverse ++ tokens)) := by
  fun_induction spellTokens tokens generalizing before with
  | case1 =>
    have full : before ≠ [] := by simpa using reached
    rw [run_text_end rfl]
    simp [finishText, full, pushText]
  | case2 s =>
    have full : before ≠ [] := by simpa using reached
    rw [run_text_end (take_text_escape_all _)]
    simp [finishText, full, push_text_full joined.first_not_empty]
  | case3 s tokens more ih =>
    obtain ⟨path, rest, rfl⟩ := joined.path_behind (by simpa using more)
    have plain := path_text_no_operator (joined.path_text path (by simp)) (spellTokens rest)
    have taken := take_text_escape_before joined.apart plain
    -- from here the run is where it would be if the text had been read before
    have next := ih joined.tail (.text s :: before) (.inl (by simp))
    simp only [spellTokens, spellPath, List.cons_append, List.append_assoc, List.nil_append]
      at next ⊢
    rw [run_before_path taken plain, push_text_full joined.first_not_empty, next]
    simp
  | case4 path tokens ih =>
    have allowed := joined.path_text path (by simp)
    rw [run_spelled_path allowed, ih joined.tail (.path path :: before) (.inl (by simp))]
    simp

theorem no_opener_of_no_operator {inside : List Char} (plain : NoOperator inside) :
    takeOpener? ('{' :: '{' :: inside) = none := by
  rw [take_opener_none_iff]
  intro kind opens
  obtain ⟨rest, equal⟩ := opens
  cases kind <;> cases equal <;> exact absurd (by simp) (plain _ rfl)

theorem spelling_not_opened {tokens : List (Token String)} (expressible : Expressible tokens) :
    takeOpener? (spellTokens tokens) = none := by
  fun_cases spellTokens tokens with
  | case1 => rfl
  | case2 s => exact take_opener_escape _
  | case3 s tokens more =>
    obtain ⟨path, rest, rfl⟩ := expressible.path_behind (by simpa using more)
    obtain ⟨one, two⟩ := expressible.first_text s path rest rfl
    exact take_opener_escape_before expressible.first_not_empty one two expressible.apart _
  | case4 path tokens =>
    have plain := path_text_no_operator (expressible.path_text path (by simp)) (spellTokens tokens)
    simpa [spellPath] using no_opener_of_no_operator plain

theorem scan_spelling {tokens : List (Token String)} (expressible : Expressible tokens) :
    scan .ok (String.ofList (spellTokens tokens)) = .ok (.interpolation tokens) := by
  rw [scan_ok_iff, String.toList_ofList, run_start_text (spelling_not_opened expressible),
    run_spelling expressible.toWellJoined [] (.inr expressible.some_path)]
  rfl

def spellWhole (kind : Kind) (path : String) : List Char :=
  opener kind ++ (escape path.toList ++ closer (kind = .raw))

theorem scan_spelled_whole {kind : Kind} {path : String}
    (enclosable : Enclosable (kind = .raw) path.toList) :
    scan .ok (String.ofList (spellWhole kind path)) = .ok (.whole kind path) := by
  have opens : takeOpener? (spellWhole kind path) = some (kind, _) := take_opener_iff.mpr rfl
  have closed : takeBody? (kind = .raw) (escape path.toList ++ (closer (kind = .raw) ++ [])) =
      some (path.toList, []) := take_body_escape enclosable
  rw [List.append_nil] at closed
  rw [scan_ok_iff, String.toList_ofList, run_start_whole opens,
    run_body_closed (step_whole _ _ _) closed rfl, String.ofList_toList, run_closed_end]

/-- A template string can express exactly the expressible token lists, the enclosable paths of
each marker over the whole string, and every literal text. -/
theorem template_strings_express_exactly :
    (∀ tokens, (∃ source, scan .ok source = .ok (.interpolation tokens)) ↔ Expressible tokens) ∧
      (∀ kind path, (∃ source, scan .ok source = .ok (.whole kind path)) ↔
        Enclosable (kind = .raw) path.toList) ∧
      ∀ text : String, ∃ source, scan (π := String) .ok source = .ok (.literal text) := by
  refine ⟨?_, ?_, ?_⟩
  · intro tokens
    constructor
    · intro spelled
      obtain ⟨source, scanned⟩ := spelled
      exact interpolation_expressible scanned
    · intro expressible
      exact ⟨_, scan_spelling expressible⟩
  · intro kind path
    constructor
    · intro spelled
      obtain ⟨source, scanned⟩ := spelled
      exact whole_enclosable scanned
    · intro enclosable
      exact ⟨_, scan_spelled_whole enclosable⟩
  · intro text
    exact ⟨_, scan_escape .ok text⟩

end Stencil.Marker
