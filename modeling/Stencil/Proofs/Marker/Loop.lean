import Stencil.Proofs.Marker.Cursor
import Stencil.Proofs.Marker.Position

/-!
The loop over an index reads what a scan of the rest reads. A call of a state function does the work
of one step, so the loop ends where the scan ends, with the same reading or the same fault.
-/
namespace Stencil.Marker

variable {π : Type} {compile : String → Except String π} {source : List Char}

def At (source : List Char) (pos : Nat) (rest : List Char) : Prop :=
  source.drop pos = rest ∧ pos ≤ source.length

theorem At.pos_eq {pos : Nat} {rest : List Char} (here : At source pos rest) :
    pos = source.length - rest.length := by
  obtain ⟨rfl, bound⟩ := here
  rw [List.length_drop]
  omega

theorem At.behind {pos : Nat} {text rest : List Char} (here : At source pos (text ++ rest)) :
    At source (pos + text.length) rest := by
  have ahead : text <+: source.drop pos := here.1 ▸ List.prefix_append _ _
  have short := ahead.length_le
  rw [List.length_drop] at short
  have bound := here.2
  refine ⟨?_, by omega⟩
  rw [← List.drop_drop, here.1, List.drop_left]

def Cursor.over (c : Cursor π) (pos : Nat) (text : List Char) : Cursor π :=
  { c with pos := pos, fragment := c.fragment ++ text }

theorem over_nothing (c : Cursor π) : c.over c.pos [] = c := by
  simp [Cursor.over]

theorem take_over (c : Cursor π) (piece : Piece) (pos : Nat) (text : List Char) :
    (c.take piece).over pos text = c.over pos (piece.meaning ++ text) := by
  simp [Cursor.over, Cursor.take]

section Turns

variable {c : Cursor π} {rest : List Char}

theorem more_of_drop {first : Char} (ahead : source.drop c.pos = first :: rest) :
    ¬ source.length ≤ c.pos := by
  intro done
  rw [List.drop_of_length_le done] at ahead
  contradiction

theorem next_of_drop {first : Char} (ahead : source.drop c.pos = first :: rest)
    (use : Char → Cursor π → Turn π) :
    c.next source use = use first { c with pos := c.pos + 1 } := by
  obtain ⟨other, more, same, _, reads⟩ := next_inside use (more_of_drop ahead)
  rw [ahead] at same
  cases same
  exact reads

theorem piece_more {piece : Piece} (ahead : source.drop c.pos = piece.spelling ++ rest) :
    ¬ source.length ≤ c.pos := by
  have inside := piece_inside ahead
  have positive := piece.spelling_length_pos
  omega

theorem accept_escape_none (plain : ¬ ['\\', '{', '{'] <+: source.drop c.pos) :
    c.acceptEscape? source = none := by
  have longer : ¬ Piece.escape3.spelling <+: source.drop c.pos := fun escape =>
    plain (List.IsPrefix.trans ⟨['{'], rfl⟩ escape)
  have shorter : ¬ Piece.escape2.spelling <+: source.drop c.pos := plain
  simp [Cursor.acceptEscape?, longer, shorter]

theorem accept_escape3 (ahead : source.drop c.pos = Piece.escape3.spelling ++ rest) :
    c.acceptEscape? source = some (c.take .escape3) := by
  simp [Cursor.acceptEscape?, ahead]

theorem accept_escape2 (ahead : source.drop c.pos = Piece.escape2.spelling ++ rest)
    (other : rest.head? ≠ some '{') : c.acceptEscape? source = some (c.take .escape2) := by
  have longer : ¬ Piece.escape3.spelling <+: source.drop c.pos := by
    rw [ahead]
    intro escape
    cases rest with
    | nil => simp [Piece.spelling] at escape
    | cons first rest =>
      have third : '{' = first := by simpa [Piece.spelling] using escape
      exact other (congrArg some third.symm)
  have shorter : Piece.escape2.spelling <+: source.drop c.pos := ⟨rest, ahead.symm⟩
  simp [Cursor.acceptEscape?, longer, shorter]

theorem opens_path_iff :
    (['{', '{'] <+: source.drop c.pos ∧ ¬ source[c.pos + 2]?.any isOperator) ↔
      PathAhead (source.drop c.pos) := by
  have second : ∀ inside, source.drop c.pos = '{' :: '{' :: inside →
      source[c.pos + 2]? = inside.head? := by
    intro inside ahead
    rw [← List.getElem?_drop, ahead]
    exact List.head?_eq_getElem?.symm
  constructor
  · rintro ⟨⟨inside, braces⟩, plain⟩
    rw [second inside braces.symm] at plain
    exact ⟨inside, braces.symm, (no_operator_iff inside).mpr (by simpa using plain)⟩
  · intro ⟨inside, braces, plain⟩
    rw [second inside braces]
    exact ⟨⟨inside, braces.symm⟩, by simpa using (no_operator_iff inside).mp plain⟩

theorem text_turn_piece {piece : Piece} (ahead : source.drop c.pos = piece.spelling ++ rest)
    (fits : piece.Fits PathAhead rest) : textTurn source c = .again (c.take piece) := by
  rw [textTurn, if_neg (piece_more ahead)]
  cases piece with
  | escape3 => rw [accept_escape3 ahead]
  | escape2 => rw [accept_escape2 ahead fits]
  | char first =>
    have plain : ¬ ['\\', '{', '{'] <+: source.drop c.pos := ahead ▸ fits.1
    have closed : ¬ PathAhead (source.drop c.pos) := ahead ▸ fits.2
    rw [accept_escape_none plain]
    simp only [opens_path_iff, closed, if_false]
    exact next_of_drop ahead _

theorem text_turn_path (ahead : PathAhead (source.drop c.pos)) :
    textTurn source c = c.flush.enter .path := by
  obtain ⟨inside, braces, plain⟩ := ahead
  have unescaped : ¬ ['\\', '{', '{'] <+: source.drop c.pos := by
    rw [braces]
    simp
  rw [textTurn, if_neg (more_of_drop braces), accept_escape_none unescaped]
  exact if_pos (opens_path_iff.mpr ⟨inside, braces, plain⟩)

theorem marker_turn_close (ahead : c.closing <+: source.drop c.pos) :
    markerTurn compile source c = c.close compile := by
  have inside := prefix_inside ahead (closer_length_pos _)
  have positive := closer_length_pos (c.kind = some (.whole .raw))
  have more : ¬ source.length ≤ c.pos := by
    rw [Cursor.closing] at inside
    omega
  rw [markerTurn, if_neg more, if_pos ahead]

theorem unclosed_of_fits {triple : Bool} {piece : Piece}
    (fits : piece.Fits (closer triple <+: ·) rest) :
    ¬ closer triple <+: piece.spelling ++ rest := by
  cases piece with
  | escape3 | escape2 => cases triple <;> simp [closer, Piece.spelling]
  | char first => exact fits.2

theorem marker_turn_piece {piece : Piece} (ahead : source.drop c.pos = piece.spelling ++ rest)
    (fits : piece.Fits (c.closing <+: ·) rest) :
    markerTurn compile source c = .again (c.take piece) := by
  have unclosed : ¬ c.closing <+: source.drop c.pos := ahead ▸ unclosed_of_fits fits
  rw [markerTurn, if_neg (piece_more ahead), if_neg unclosed]
  cases piece with
  | escape3 => rw [accept_escape3 ahead]
  | escape2 => rw [accept_escape2 ahead fits]
  | char first =>
    have plain : ¬ ['\\', '{', '{'] <+: source.drop c.pos := ahead ▸ fits.1
    rw [accept_escape_none plain]
    exact next_of_drop ahead _

end Turns

section Calls

variable {c : Cursor π} {rest : List Char}

theorem call_text_over (compile : String → Except String π) (here : At source c.pos rest) :
    ∃ pos, At source pos (takeText rest).2 ∧
      call compile source .text c = call compile source .text (c.over pos (takeText rest).1) := by
  induction rest using piece_induction PathAhead generalizing c with
  | nil =>
    refine ⟨c.pos, here, ?_⟩
    exact congrArg (call compile source .text) (over_nothing c).symm
  | stopped rest ahead =>
    refine ⟨c.pos, ?_, ?_⟩
    · rw [take_text_path ahead]
      exact here
    · rw [take_text_path ahead, over_nothing]
  | piece first rest fits ih =>
    have taken : turn compile source .text c = .again (c.take first) := text_turn_piece here.1 fits
    obtain ⟨pos, behind, reads⟩ := ih (c := c.take first) here.behind
    refine ⟨pos, ?_, ?_⟩
    · rw [take_text_piece fits]
      exact behind
    · rw [call_again taken, reads, take_text_piece fits, take_over]

theorem close_not_again (c : Cursor π) (behind : Cursor π) : c.close compile ≠ .again behind := by
  unfold Cursor.close
  split
  · simp
  · split <;> simp [Cursor.closePath, Cursor.closeWhole]

theorem call_marker_unclosed {triple : Bool} (closes : c.closing = closer triple)
    (here : At source c.pos rest) (unclosed : takeBody? triple rest = none) :
    call compile source .marker c = .fault .unterminated c.start := by
  induction rest using piece_induction (closer triple <+: ·) generalizing c with
  | nil =>
    have done : source.length ≤ c.pos := List.drop_eq_nil_iff.mp here.1
    have taken : turn compile source .marker c = .fault .unterminated c.start := if_pos done
    exact call_last taken (by simp)
  | stopped rest ahead =>
    obtain ⟨after, rfl⟩ := ahead
    rw [take_body_close] at unclosed
    contradiction
  | piece first rest fits ih =>
    have taken : turn compile source .marker c = .again (c.take first) :=
      marker_turn_piece here.1 (closes ▸ fits)
    rw [take_body_piece fits, Option.map_eq_none_iff] at unclosed
    rw [call_again taken]
    exact ih closes here.behind unclosed

theorem call_marker_closed (compile : String → Except String π) {triple : Bool}
    {body after : List Char} (closes : c.closing = closer triple) (here : At source c.pos rest)
    (closed : takeBody? triple rest = some (body, after)) :
    ∃ pos, At source pos (closer triple ++ after) ∧
      call compile source .marker c = (c.over pos body).close compile := by
  induction rest using piece_induction (closer triple <+: ·) generalizing c body with
  | nil => contradiction
  | stopped rest ahead =>
    obtain ⟨tail, rfl⟩ := ahead
    rw [take_body_close] at closed
    cases closed
    refine ⟨c.pos, here, ?_⟩
    have taken : turn compile source .marker c = c.close compile :=
      marker_turn_close ⟨_, closes ▸ here.1.symm⟩
    rw [over_nothing]
    exact call_last taken (close_not_again c)
  | piece first rest fits ih =>
    have taken : turn compile source .marker c = .again (c.take first) :=
      marker_turn_piece here.1 (closes ▸ fits)
    rw [take_body_piece fits] at closed
    obtain ⟨⟨text, tail⟩, found, same⟩ := Option.map_eq_some_iff.mp closed
    cases same
    have still : (c.take first).closing = closer triple := closes
    obtain ⟨pos, behind, reads⟩ := ih still here.behind found
    refine ⟨pos, behind, ?_⟩
    rw [call_again taken, reads, take_over]

end Calls

/-- The function and the cursor are where the scan is. Text may be in the fragment already that the
scan has still to take: `same` says that it takes this and what is left. -/
inductive Follows (source : List Char) : State π → Control → Cursor π → Prop where
  | text {before : List (Token π)} {rest left : List Char} {c : Cursor π}
      (here : At source c.pos left)
      (same : takeText rest = (c.fragment ++ (takeText left).1, (takeText left).2))
      (tokens : c.tokens = before.reverse)
      (mode : c.mode = if before.isEmpty then .literal else .interpolate) :
      Follows source ⟨.text before, rest⟩ .text c
  | path {before : List (Token π)} {opened rest : List Char} {c : Cursor π}
      (here : At source c.pos rest) (start : At source c.start opened)
      (fresh : c.fragment = []) (opened_as : c.kind = some .path)
      (tokens : c.tokens = before.reverse) :
      Follows source ⟨.path before opened, rest⟩ .marker c
  | whole {kind : Kind} {opened rest : List Char} {c : Cursor π}
      (here : At source c.pos rest) (start : At source c.start opened)
      (fresh : c.fragment = []) (opened_as : c.kind = some (.whole kind)) :
      Follows source ⟨.whole kind opened, rest⟩ .marker c
  | closed {kind : Kind} {path : π} {rest : List Char} {c : Cursor π}
      (here : At source c.pos rest) (mode : c.mode = .closed)
      (opened_as : c.kind = some (.whole kind)) (compiled : c.path = some path) :
      Follows source ⟨.closed kind path, rest⟩ .closed c

inductive Answers (source : List Char) : Step π → Turn π → Prop where
  | fault (cause : Cause) {rest : List Char} {index : Nat} (shows : At source index rest) :
      Answers source (.fault cause rest) (.fault cause index)
  | finish {reading : Reading π} {c : Cursor π} (reads : c.reading? = some reading) :
      Answers source (.finish reading) (.pass none c)
  | next {t : State π} {g : Control} {c : Cursor π} (follows : Follows source t g c) :
      Answers source (.next t) (.pass (some g) c)

theorem flush_reversed {c : Cursor π} {before : List (Token π)}
    (tokens : c.tokens = before.reverse) :
    c.flush.tokens = (pushText c.fragment before).reverse := by
  unfold Cursor.flush pushText
  split <;> simp [tokens]

theorem reading_of_text {c : Cursor π} {before : List (Token π)}
    (tokens : c.tokens = before.reverse)
    (mode : c.mode = if before.isEmpty then .literal else .interpolate) :
    c.reading? = some (finishText c.fragment before) := by
  unfold Cursor.reading? finishText
  cases before with
  | nil => simp [mode]
  | cons last before => simp [mode, flush_reversed tokens]

theorem text_ends {c : Cursor π} (done : At source c.pos []) :
    call compile source .text c = .pass none c := by
  have taken : turn compile source .text c = .pass none c :=
    if_pos (List.drop_eq_nil_iff.mp done.1)
  exact call_last taken (by simp)

theorem text_opens {c : Cursor π} {opened : List Char} (here : At source c.pos opened)
    (ahead : PathAhead opened) :
    call compile source .text c = c.flush.enter .path := by
  have taken : turn compile source .text c = c.flush.enter .path :=
    text_turn_path (here.1 ▸ ahead)
  exact call_last taken (by simp [Cursor.enter])

theorem path_followed {before : List (Token π)} {opened : List Char} {c : Cursor π}
    (here : At source c.pos opened) (ahead : PathAhead opened)
    (tokens : c.tokens = before.reverse) :
    Answers source (.next ⟨.path (pushText c.fragment before) opened, opened.drop 2⟩)
      (c.flush.enter .path) := by
  obtain ⟨inside, rfl, _⟩ := ahead
  have there : At source c.flush.pos (['{', '{'] ++ inside) := by rwa [flush_pos]
  exact .next (.path there.behind there rfl rfl (flush_reversed tokens))

theorem text_answered {before : List (Token π)} {rest left : List Char} {c : Cursor π}
    (here : At source c.pos left)
    (same : takeText rest = (c.fragment ++ (takeText left).1, (takeText left).2))
    (tokens : c.tokens = before.reverse)
    (mode : c.mode = if before.isEmpty then .literal else .interpolate) :
    Answers source (stepText before rest) (call compile source .text c) := by
  obtain ⟨pos, there, reads⟩ := call_text_over compile here
  have stops := take_text_stops left
  rw [reads, stepText, same]
  generalize (takeText left).2 = opened at there stops ⊢
  rcases stops with rfl | ahead
  · rw [text_ends there]
    exact .finish (reading_of_text (c := c.over pos _) tokens mode)
  · have some : opened.isEmpty = false := by
      obtain ⟨inside, rfl, _⟩ := ahead
      rfl
    rw [text_opens there ahead]
    simp only [some, Bool.false_eq_true, if_false]
    exact path_followed (c := c.over pos _) there ahead tokens

theorem body_answered {triple : Bool} {opened rest : List Char} {close : π → Phase π} {c : Cursor π}
    (closes : c.closing = closer triple) (here : At source c.pos rest)
    (start : At source c.start opened) (fresh : c.fragment = [])
    (follows : ∀ path after (d : Cursor π), d.kind = c.kind → d.tokens = c.tokens →
      At source (d.pos + d.closing.length) after → Answers source (.next ⟨close path, after⟩)
        (if d.kind = some .path then d.closePath path else d.closeWhole path)) :
    Answers source (stepBody compile triple opened rest close) (call compile source .marker c) := by
  unfold stepBody
  cases taken : takeBody? triple rest with
  | none =>
    rw [call_marker_unclosed closes here taken]
    exact .fault _ start
  | some result =>
    obtain ⟨body, after⟩ := result
    obtain ⟨pos, there, reads⟩ := call_marker_closed compile closes here taken
    have text : (c.over pos body).fragment = body := by simp [Cursor.over, fresh]
    rw [reads, Cursor.close, text]
    cases compiled : compile (String.ofList body) with
    | error reason => simpa only [compiled] using .fault _ start
    | ok path =>
      have still : (c.over pos body).closing = closer triple := closes
      have behind : At source ((c.over pos body).pos + (c.over pos body).closing.length) after := by
        rw [still]
        exact there.behind
      simpa only [compiled] using follows path after (c.over pos body) rfl rfl behind

/-- One call of a state function does what one step of the scan does. -/
theorem step_answered {s : State π} {f : Control} {c : Cursor π} (follows : Follows source s f c) :
    Answers source (step compile s) (call compile source f c) := by
  cases follows with
  | text here same tokens mode => exact text_answered here same tokens mode
  | path here start fresh opens tokens =>
    have closes : c.closing = closer false := by simp [Cursor.closing, opens]
    refine body_answered closes here start fresh ?_
    intro path after d opening kept behind
    rw [if_pos (opening.trans opens)]
    refine .next (.text behind rfl ?_ rfl)
    simp [kept, tokens]
  | @whole kind opened rest c here start fresh opens =>
    have closes : c.closing = closer (kind = .raw) := by simp [Cursor.closing, opens]
    refine body_answered closes here start fresh ?_
    intro path after d opening kept behind
    have other : d.kind ≠ some .path := by simp [opening, opens]
    rw [if_neg other]
    exact .next (.closed behind rfl (opening.trans opens) rfl)
  | @closed kind path rest c here mode opens compiled =>
    cases rest with
    | nil =>
      have taken : turn compile source .closed c = .pass none c :=
        if_pos (List.drop_eq_nil_iff.mp here.1)
      have reads : c.reading? = some (.whole kind path) := by
        simp [Cursor.reading?, mode, opens, compiled]
      rw [call_last taken (by simp)]
      exact .finish reads
    | cons first rest =>
      have taken : turn compile source .closed c = .fault (.trailing first) c.pos :=
        (if_neg (more_of_drop here.1)).trans (next_of_drop here.1 _)
      rw [call_last taken (by simp)]
      exact .fault _ here

section Loop

variable {s : State π} {f : Control} {c : Cursor π}

theorem loop_next {g : Control} {behind : Cursor π}
    (passed : call compile source f c = .pass (some g) behind) :
    (loop compile source f c).ending = (loop compile source g behind).ending := by
  rw [loop]
  split <;> simp_all

theorem loop_last {other : Turn π} (ended : call compile source f c = other)
    (last : ∀ g behind, other ≠ .pass (some g) behind) :
    (loop compile source f c).ending = other := by
  rw [loop]
  split
  · rename_i g behind passed
    exact absurd (ended.symm.trans passed) (last g behind)
  · exact ended

inductive LoopEnds (source : List Char) :
    Except (Cause × List Char) (Reading π) → Turn π → Prop where
  | fault (cause : Cause) {rest : List Char} {index : Nat} (shows : At source index rest) :
      LoopEnds source (.error (cause, rest)) (.fault cause index)
  | finish {reading : Reading π} {c : Cursor π} (reads : c.reading? = some reading) :
      LoopEnds source (.ok reading) (.pass none c)

/-- From where the loop is at the scan, both end alike; by induction on what is left to scan. -/
theorem run_followed (follows : Follows source s f c) :
    LoopEnds source (run compile s) (loop compile source f c).ending := by
  induction length : s.rest.length using Nat.strongRecOn generalizing s f c with
  | ind n ih =>
    have answered : Answers source (step compile s) (call compile source f c) :=
      step_answered follows
    generalize taken : step compile s = one at answered
    generalize called : call compile source f c = two at answered
    cases answered with
    | fault cause shows =>
      rw [run_fault taken, loop_last called (by simp)]
      exact .fault cause shows
    | finish reads =>
      rw [run_finish taken, loop_last called (by simp)]
      exact .finish reads
    | next behind =>
      rw [run_next taken, loop_next called]
      exact ih _ (length ▸ step_shrinks taken) behind rfl

end Loop

section Start

theorem empty_call {c : Cursor π} {other : Turn π} (taken : emptyTurn source c = other)
    (last : ∀ behind, other ≠ .again behind) : call compile source .empty c = other :=
  call_last taken last

theorem empty_turn_whole (kind : Kind) (inside : List Char) :
    emptyTurn (opener kind ++ inside) (.initial : Cursor π) =
      Cursor.initial.enter (.whole kind) := by
  cases kind <;> simp [emptyTurn, Cursor.initial, Cursor.acceptEscape?, opener, Piece.spelling]

theorem empty_turn_path {inside : List Char}
    (none : takeOpener? ('{' :: '{' :: inside) = none) :
    emptyTurn ('{' :: '{' :: inside) (.initial : Cursor π) = Cursor.initial.enter .path := by
  have absent := take_opener_none_iff.mp none
  simp [emptyTurn, Cursor.initial, Cursor.acceptEscape?, Piece.spelling, absent]

theorem path_of_braces {inside : List Char}
    (absent : ∀ kind, ¬ opener kind <+: '{' :: '{' :: inside) :
    PathAhead ('{' :: '{' :: inside) := by
  refine ⟨inside, rfl, ?_⟩
  intro first here operator
  obtain ⟨rest, rfl⟩ := List.head?_eq_some_iff.mp here
  have whole : ∀ kind, opener kind ≠ ['{', '{', first] := by
    intro kind same
    exact absent kind ⟨rest, by rw [same]; rfl⟩
  simp only [List.mem_cons, List.not_mem_nil, or_false] at operator
  rcases operator with rfl | rfl | rfl | rfl
  · exact whole .raw rfl
  · exact whole .unquote rfl
  · exact whole .sectionOf rfl
  · exact whole .switch rfl

theorem empty_turn_piece {c : Cursor π} {piece : Piece} {rest : List Char}
    (fresh : c.fragment = []) (ahead : source.drop c.pos = piece.spelling ++ rest)
    (fits : piece.Fits PathAhead rest)
    (absent : ∀ kind, ¬ opener kind <+: piece.spelling ++ rest) :
    emptyTurn source c = .pass (some .text) { c.take piece with mode := .literal } := by
  rw [emptyTurn, if_neg (piece_more ahead)]
  cases piece with
  | escape3 => rw [accept_escape3 ahead]
  | escape2 => rw [accept_escape2 ahead fits]
  | char first =>
    have plain : ¬ ['\\', '{', '{'] <+: source.drop c.pos := ahead ▸ fits.1
    have apart : ¬ ['{', '{'] <+: source.drop c.pos := by
      intro ⟨inside, braces⟩
      have spelled : '{' :: '{' :: inside = first :: rest := braces.trans ahead
      apply fits.2
      rw [← spelled]
      exact path_of_braces (spelled ▸ absent)
    have none : ([Kind.raw, .unquote, .sectionOf, .switch].find? fun kind =>
        opener kind <+: source.drop c.pos) = none := by
      rw [ahead]
      simp [absent]
    rw [accept_escape_none plain, none]
    simp only [apart, if_false]
    rw [next_of_drop ahead]
    simp [Cursor.take, fresh, Piece.spelling, Piece.meaning]

theorem start_followed :
    LoopEnds source (run compile ⟨.start, source⟩)
      (loop compile source .empty .initial).ending := by
  have here : At source (Cursor.initial : Cursor π).pos source := ⟨rfl, Nat.zero_le _⟩
  cases opens : takeOpener? source with
  | some read =>
    obtain ⟨kind, inside⟩ := read
    have spelled := take_opener_iff.mp opens
    subst spelled
    have called : call compile (opener kind ++ inside) .empty (.initial : Cursor π) =
        Cursor.initial.enter (.whole kind) :=
      empty_call (empty_turn_whole kind inside) (by simp [Cursor.enter])
    rw [run_start_whole opens, loop_next called]
    have behind : At (opener kind ++ inside) (0 + (opener kind).length) inside := here.behind
    exact run_followed (.whole behind here rfl rfl)
  | none =>
    have absent := take_opener_none_iff.mp opens
    rw [run_start_text opens]
    rcases piece_or_stop PathAhead source with rfl | ahead | ⟨first, rest, spelled, fits⟩
    · have called : call compile [] .empty (.initial : Cursor π) = .pass none .initial :=
        empty_call rfl (by simp)
      rw [run_text_end rfl, loop_last called (by simp)]
      exact .finish rfl
    · have taken := take_text_path ahead
      obtain ⟨inside, rfl, _⟩ := ahead
      have there : At ('{' :: '{' :: inside) 0 (['{', '{'] ++ inside) := here
      have called : call compile ('{' :: '{' :: inside) .empty (.initial : Cursor π) =
          Cursor.initial.enter .path :=
        empty_call (empty_turn_path opens) (by simp [Cursor.enter])
      rw [run_text_path taken, loop_next called]
      exact run_followed (.path there.behind there rfl rfl rfl)
    · have called : call compile source .empty (.initial : Cursor π) =
          .pass (some .text) { Cursor.initial.take first with mode := .literal } :=
        empty_call (empty_turn_piece rfl spelled fits (spelled ▸ absent)) (by simp)
      -- the first piece is in the fragment before the text function is called
      have there : At source 0 (first.spelling ++ rest) := ⟨spelled, Nat.zero_le _⟩
      have same := take_text_piece fits
      rw [← spelled] at same
      rw [loop_next called]
      exact run_followed (.text there.behind same rfl rfl)

end Start

/-- What the scan of the source comes to by the end of its loop, unless the loop has gone astray. -/
def Turn.result? (source : String) : Turn π → Option (Except Fault (Reading π))
  | .pass none c => c.reading?.map .ok
  | .fault cause index => some (.error ⟨cause, source, index⟩)
  | _ => none

def scanLoop (compile : String → Except String π) (source : String) : Course π :=
  loop compile source.toList .empty .initial

theorem scan_loop_ends (compile : String → Except String π) (source : String) :
    (scanLoop compile source).ending.result? source = some (scan compile source) := by
  have ends : LoopEnds source.toList (run compile ⟨.start, source.toList⟩)
      (loop compile source.toList .empty .initial).ending := start_followed
  unfold scanLoop scan
  generalize run compile ⟨.start, source.toList⟩ = read at ends
  generalize (loop compile source.toList .empty .initial).ending = ending at ends
  cases ends with
  | finish reads => simp [Turn.result?, reads]
  | @fault cause rest index shows =>
    have place := shows.pos_eq
    rw [String.length_toList] at place
    simp [Turn.result?, place]

/-- For every source and path compiler the index stays inside the source and behind the start of the
marker that is open; a marker is open exactly while the call is with its function, behind its
opener. No character is read behind the end. A call that another one follows moves the index
forward, so there is one call more than there are characters at most, and what the loop comes to is
the scan of the source. -/
theorem scan_loop_safe (compile : String → Except String π) (source : String) :
    (∀ next c, Reached compile source.toList next c → Inside source.toList next c) ∧
    (∀ f c, Reached compile source.toList (some f) c →
      turn compile source.toList f c ≠ .stray) ∧
    (∀ f c g behind, call compile source.toList f c = .pass (some g) behind →
      c.pos < behind.pos) ∧
    (∀ made ∈ (scanLoop compile source).calls,
      Reached compile source.toList (some made.1) made.2) ∧
    (scanLoop compile source).calls.length ≤ source.length + 1 ∧
    (scanLoop compile source).ending.result? source = some (scan compile source) := by
  have bound := loop_calls_bounded (.initial : Reached compile source.toList _ _)
  rw [String.length_toList] at bound
  refine ⟨fun _ _ => reached_inside, fun f c _ => turn_reads f c, ?_, loop_reached .initial,
    bound, scan_loop_ends compile source⟩
  intro f c g behind passed
  exact (call_forward passed).2

/-- A source that ends right behind the braces of a path, before and after these. -/
def behindText : Cursor String := ⟨1, 0, .literal, none, ['a'], [], none⟩

def behindBraces : Cursor String := ⟨3, 1, .opened, some .path, [], [.text "a"], none⟩

theorem scan_loop_safe_of_open_end :
    Reached .ok ['a', '{', '{'] (some .marker) behindBraces ∧
    Inside ['a', '{', '{'] (some .marker) behindBraces ∧
    turn .ok ['a', '{', '{'] .marker behindBraces ≠ .stray ∧
    call .ok ['a', '{', '{'] .text behindText = .pass (some .marker) behindBraces ∧
    behindText.pos < behindBraces.pos ∧
    (scanLoop (π := String) .ok "a\x7b\x7b").calls.length ≤ 4 := by
  obtain ⟨inside, reads, forward, _, bound, _⟩ := scan_loop_safe (π := String) .ok "a\x7b\x7b"
  have first : turn .ok ['a', '{', '{'] .empty .initial = .pass (some .text) behindText := rfl
  have second : turn .ok ['a', '{', '{'] .text behindText = .pass (some .marker) behindBraces := rfl
  have reached : Reached .ok ['a', '{', '{'] (some .marker) behindBraces :=
    (Reached.initial.pass first).pass second
  have called : call .ok ['a', '{', '{'] .text behindText = .pass (some .marker) behindBraces :=
    call_last second (by simp)
  exact ⟨reached, inside _ _ reached, reads _ _ reached, called, forward _ _ _ _ called, bound⟩

end Stencil.Marker
