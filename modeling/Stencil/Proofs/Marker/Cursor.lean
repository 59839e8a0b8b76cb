import Stencil.Marker.Scan
import Stencil.Proofs.Marker.Grammar

/-!
Scanning as a loop over an index into the source. One state function at a time has the call; in
each turn of its own loop it moves the index past a character, an escape, an opener or closing
braces, until it passes the call on or the scan ends. What one turn can do is listed once, and from
it come the bounds of the index and what holds while a marker is open.
-/
namespace Stencil.Marker

inductive Mode where
  | empty
  | literal
  | interpolate
  | opened
  | closed
deriving DecidableEq

inductive Opening where
  | path
  | whole (kind : Kind)
deriving DecidableEq

def Opening.braces : Opening → List Char
  | .path => ['{', '{']
  | .whole kind => opener kind

inductive Control where
  | empty
  | text
  | marker
  | closed
deriving DecidableEq

/-- What the state functions share. `start` is the index of the marker that was opened last and
`kind` what it is; `fragment` is the text since the last token. -/
structure Cursor (π : Type) where
  pos : Nat
  start : Nat
  mode : Mode
  kind : Option Opening
  fragment : List Char
  tokens : List (Token π)
  path : Option π

/-- A turn goes on in its function, passes the call to the next function, if there is one, or shows
a fault; it strays if it reads a character where the source has none. -/
inductive Turn (π : Type) where
  | again (c : Cursor π)
  | pass (next : Option Control) (c : Cursor π)
  | fault (cause : Cause) (index : Nat)
  | stray

variable {π : Type}

namespace Cursor

def initial : Cursor π := ⟨0, 0, .empty, none, [], [], none⟩

def next (source : List Char) (c : Cursor π) (use : Char → Cursor π → Turn π) : Turn π :=
  match source[c.pos]? with
  | none => .stray
  | some first => use first { c with pos := c.pos + 1 }

def take (c : Cursor π) (piece : Piece) : Cursor π :=
  { c with pos := c.pos + piece.spelling.length, fragment := c.fragment ++ piece.meaning }

def acceptEscape? (source : List Char) (c : Cursor π) : Option (Cursor π) :=
  ([Piece.escape3, .escape2].find? fun escape => escape.spelling <+: source.drop c.pos).map c.take

def flush (c : Cursor π) : Cursor π :=
  if c.fragment.isEmpty then c
  else { c with tokens := c.tokens ++ [.text (String.ofList c.fragment)], fragment := [] }

def enter (c : Cursor π) (opening : Opening) : Turn π :=
  .pass (some .marker) { c with
    pos := c.pos + opening.braces.length, start := c.pos, mode := .opened, kind := some opening,
    fragment := [] }

def closing (c : Cursor π) : List Char := closer (c.kind = some (.whole .raw))

def closePath (c : Cursor π) (path : π) : Turn π :=
  .pass (some .text) { c with
    pos := c.pos + c.closing.length, mode := .interpolate, fragment := [],
    tokens := c.tokens ++ [.path path] }

def closeWhole (c : Cursor π) (path : π) : Turn π :=
  .pass (some .closed) { c with
    pos := c.pos + c.closing.length, mode := .closed, fragment := [], path := some path }

def close (compile : String → Except String π) (c : Cursor π) : Turn π :=
  match compile (String.ofList c.fragment) with
  | .error reason => .fault (.invalidPath (String.ofList c.fragment) reason) c.start
  | .ok path => if c.kind = some .path then c.closePath path else c.closeWhole path

def reading? (c : Cursor π) : Option (Reading π) :=
  match c.mode with
  | .empty => some (.literal "")
  | .literal => some (.literal (String.ofList c.fragment))
  | .interpolate => some (.interpolation c.flush.tokens)
  | .opened | .closed =>
    match c.kind, c.path with
    | some (.whole kind), some path => some (.whole kind path)
    | _, _ => none

end Cursor

section Turns

variable (compile : String → Except String π) (source : List Char)

def emptyTurn (c : Cursor π) : Turn π :=
  if source.length ≤ c.pos then .pass none c
  else match c.acceptEscape? source with
    | some behind => .pass (some .text) { behind with mode := .literal }
    | none =>
      match [Kind.raw, .unquote, .sectionOf, .switch].find? fun kind =>
        opener kind <+: source.drop c.pos with
      | some kind => c.enter (.whole kind)
      | none =>
        if ['{', '{'] <+: source.drop c.pos then c.enter .path
        else c.next source fun first behind =>
          .pass (some .text) { behind with mode := .literal, fragment := [first] }

def textTurn (c : Cursor π) : Turn π :=
  if source.length ≤ c.pos then .pass none c
  else match c.acceptEscape? source with
    | some behind => .again behind
    | none =>
      if ['{', '{'] <+: source.drop c.pos ∧ ¬ source[c.pos + 2]?.any isOperator then
        c.flush.enter .path
      else c.next source fun first behind =>
        .again { behind with fragment := c.fragment ++ [first] }

def markerTurn (c : Cursor π) : Turn π :=
  if source.length ≤ c.pos then .fault .unterminated c.start
  else if c.closing <+: source.drop c.pos then c.close compile
  else match c.acceptEscape? source with
    | some behind => .again behind
    | none => c.next source fun first behind =>
      .again { behind with fragment := c.fragment ++ [first] }

def closedTurn (c : Cursor π) : Turn π :=
  if source.length ≤ c.pos then .pass none c
  else c.next source fun first _ => .fault (.trailing first) c.pos

def turn : Control → Cursor π → Turn π
  | .empty => emptyTurn source
  | .text => textTurn source
  | .marker => markerTurn compile source
  | .closed => closedTurn source

inductive Moves : Control → Cursor π → Turn π → Prop where
  | first {c : Cursor π} {piece : Piece} {rest : List Char} (fragment : List Char)
      (ahead : source.drop c.pos = piece.spelling ++ rest) :
      Moves .empty c (.pass (some .text)
        { c.take piece with mode := .literal, fragment := fragment })
  | piece {f : Control} {c : Cursor π} {piece : Piece} {rest : List Char}
      (reads : f = .text ∨ f = .marker) (ahead : source.drop c.pos = piece.spelling ++ rest) :
      Moves f c (.again (c.take piece))
  | opens {f : Control} {c before : Cursor π} {opening : Opening} (outside : f = .empty ∨ f = .text)
      (same : before.pos = c.pos) (ahead : opening.braces <+: source.drop c.pos) :
      Moves f c (before.enter opening)
  | path {c : Cursor π} {path : π} (ahead : c.closing <+: source.drop c.pos)
      (compiled : compile (String.ofList c.fragment) = .ok path) :
      Moves .marker c (c.closePath path)
  | whole {c : Cursor π} {path : π} (ahead : c.closing <+: source.drop c.pos)
      (compiled : compile (String.ofList c.fragment) = .ok path) :
      Moves .marker c (c.closeWhole path)
  | refused {c : Cursor π} {reason : String}
      (refused : compile (String.ofList c.fragment) = .error reason) :
      Moves .marker c (.fault (.invalidPath (String.ofList c.fragment) reason) c.start)
  | ends {f : Control} {c : Cursor π} (outside : f ≠ .marker) (done : source.length ≤ c.pos) :
      Moves f c (.pass none c)
  | unterminated {c : Cursor π} (done : source.length ≤ c.pos) :
      Moves .marker c (.fault .unterminated c.start)
  | trailing {c : Cursor π} {first : Char} (here : source[c.pos]? = some first) :
      Moves .closed c (.fault (.trailing first) c.pos)

end Turns

section Movement

variable {compile : String → Except String π} {source : List Char}

theorem accept_escape_ahead {c behind : Cursor π} (taken : c.acceptEscape? source = some behind) :
    ∃ escape rest, source.drop c.pos = Piece.spelling escape ++ rest ∧ behind = c.take escape := by
  unfold Cursor.acceptEscape? at taken
  obtain ⟨escape, found, rfl⟩ := Option.map_eq_some_iff.mp taken
  have chosen := List.find?_some found
  obtain ⟨rest, ahead⟩ := of_decide_eq_true chosen
  exact ⟨escape, rest, ahead.symm, rfl⟩

theorem next_inside {c : Cursor π} (use : Char → Cursor π → Turn π)
    (more : ¬ source.length ≤ c.pos) :
    ∃ first rest, source.drop c.pos = first :: rest ∧ source[c.pos]? = some first ∧
      c.next source use = use first { c with pos := c.pos + 1 } := by
  have inside : c.pos < source.length := Nat.lt_of_not_le more
  have here : source[c.pos]? = some source[c.pos] := List.getElem?_eq_getElem inside
  refine ⟨source[c.pos], source.drop (c.pos + 1), List.drop_eq_getElem_cons inside, here, ?_⟩
  rw [Cursor.next, here]

theorem flush_pos (c : Cursor π) : c.flush.pos = c.pos := by
  unfold Cursor.flush
  split <;> rfl

theorem empty_turn_moves (c : Cursor π) : Moves compile source .empty c (emptyTurn source c) := by
  unfold emptyTurn
  split
  · rename_i done
    exact .ends (by simp) done
  rename_i more
  split
  · rename_i behind taken
    obtain ⟨escape, rest, ahead, rfl⟩ := accept_escape_ahead taken
    exact .first _ ahead
  split
  · rename_i kind found
    have chosen := List.find?_some found
    exact .opens (.inl rfl) rfl (of_decide_eq_true chosen)
  split
  · rename_i braces
    exact .opens (.inl rfl) rfl braces
  · obtain ⟨first, rest, ahead, _, reads⟩ := next_inside _ more
    have spelled : source.drop c.pos = (Piece.char first).spelling ++ rest := ahead
    rw [reads]
    exact .first _ spelled

theorem text_turn_moves (c : Cursor π) : Moves compile source .text c (textTurn source c) := by
  unfold textTurn
  split
  · rename_i done
    exact .ends (by simp) done
  rename_i more
  split
  · rename_i behind taken
    obtain ⟨escape, rest, ahead, rfl⟩ := accept_escape_ahead taken
    exact .piece (.inl rfl) ahead
  split
  · rename_i braces
    exact .opens (.inr rfl) (flush_pos c) braces.1
  · obtain ⟨first, rest, ahead, _, reads⟩ := next_inside _ more
    have spelled : source.drop c.pos = (Piece.char first).spelling ++ rest := ahead
    rw [reads]
    exact .piece (.inl rfl) spelled

theorem close_moves {c : Cursor π} (ahead : c.closing <+: source.drop c.pos) :
    Moves compile source .marker c (c.close compile) := by
  unfold Cursor.close
  split
  · rename_i reason refused
    exact .refused refused
  · rename_i path compiled
    split
    · exact .path ahead compiled
    · exact .whole ahead compiled

theorem marker_turn_moves (c : Cursor π) :
    Moves compile source .marker c (markerTurn compile source c) := by
  unfold markerTurn
  split
  · rename_i done
    exact .unterminated done
  rename_i more
  split
  · rename_i braces
    exact close_moves braces
  split
  · rename_i behind taken
    obtain ⟨escape, rest, ahead, rfl⟩ := accept_escape_ahead taken
    exact .piece (.inr rfl) ahead
  · obtain ⟨first, rest, ahead, _, reads⟩ := next_inside _ more
    have spelled : source.drop c.pos = (Piece.char first).spelling ++ rest := ahead
    rw [reads]
    exact .piece (.inr rfl) spelled

theorem closed_turn_moves (c : Cursor π) :
    Moves compile source .closed c (closedTurn source c) := by
  unfold closedTurn
  split
  · rename_i done
    exact .ends (by simp) done
  · rename_i more
    obtain ⟨first, _, _, here, reads⟩ := next_inside _ more
    rw [reads]
    exact .trailing here

theorem turn_moves (f : Control) (c : Cursor π) :
    Moves compile source f c (turn compile source f c) := by
  cases f with
  | empty => exact empty_turn_moves c
  | text => exact text_turn_moves c
  | marker => exact marker_turn_moves c
  | closed => exact closed_turn_moves c

/-- The turn leaves the index behind where it was, which is inside the source. -/
def Turn.Forward (source : List Char) (pos : Nat) : Turn π → Prop
  | .again c => pos < source.length ∧ pos < c.pos
  | .pass (some _) c => pos < source.length ∧ pos < c.pos
  | _ => True

theorem prefix_inside {pos : Nat} {text : List Char} (ahead : text <+: source.drop pos)
    (some : 0 < text.length) : pos + text.length ≤ source.length := by
  have short := ahead.length_le
  rw [List.length_drop] at short
  omega

theorem piece_inside {pos : Nat} {piece : Piece} {rest : List Char}
    (ahead : source.drop pos = piece.spelling ++ rest) :
    pos + piece.spelling.length ≤ source.length :=
  prefix_inside (ahead ▸ List.prefix_append _ _) piece.spelling_length_pos

theorem Opening.braces_length_pos (opening : Opening) : 0 < opening.braces.length := by
  rcases opening with _ | ⟨_ | _ | _ | _⟩ <;> decide

theorem closer_length_pos (triple : Bool) : 0 < (closer triple).length := by
  cases triple <;> decide

theorem moves_forward {f : Control} {c : Cursor π} {taken : Turn π}
    (moves : Moves compile source f c taken) : taken.Forward source c.pos := by
  cases moves with
  | first fragment ahead | piece reads ahead =>
    rename_i piece rest
    have inside := piece_inside ahead
    have positive := piece.spelling_length_pos
    simp only [Turn.Forward, Cursor.take]
    omega
  | @opens f c before opening outside same ahead =>
    have positive := opening.braces_length_pos
    have inside := prefix_inside ahead positive
    simp only [Cursor.enter, Turn.Forward, same]
    omega
  | path ahead compiled | whole ahead compiled =>
    have inside := prefix_inside ahead (closer_length_pos _)
    have positive := closer_length_pos (c.kind = some (.whole .raw))
    simp only [Cursor.closePath, Cursor.closeWhole, Turn.Forward, Cursor.closing] at inside ⊢
    omega
  | _ => trivial

theorem turn_forward (f : Control) (c : Cursor π) :
    (turn compile source f c).Forward source c.pos :=
  moves_forward (turn_moves f c)

theorem again_forward {f : Control} {c behind : Cursor π}
    (taken : turn compile source f c = .again behind) :
    c.pos < source.length ∧ c.pos < behind.pos := by
  have forward : (turn compile source f c).Forward source c.pos := turn_forward f c
  rwa [taken] at forward

end Movement

section Loops

variable (compile : String → Except String π) (source : List Char)

/-- A call of a state function: its turns, up to the first one that does not go on in it. -/
def call (f : Control) (c : Cursor π) : Turn π :=
  match taken : turn compile source f c with
  | .again behind =>
    have := again_forward taken
    call f behind
  | other => other
termination_by source.length - c.pos

variable {compile source}

theorem call_again {f : Control} {c behind : Cursor π}
    (taken : turn compile source f c = .again behind) :
    call compile source f c = call compile source f behind := by
  rw [call]
  split <;> simp_all

theorem call_last {f : Control} {c : Cursor π} {other : Turn π}
    (taken : turn compile source f c = other) (last : ∀ behind, other ≠ .again behind) :
    call compile source f c = other := by
  rw [call]
  split
  · rename_i behind again
    exact absurd (taken.symm.trans again) (last behind)
  · exact taken

theorem call_forward {f g : Control} {c behind : Cursor π}
    (passed : call compile source f c = .pass (some g) behind) :
    c.pos < source.length ∧ c.pos < behind.pos := by
  fun_induction call compile source f c with
  | case1 c between taken here ih =>
    have forward := ih passed
    omega
  | case2 c last =>
    have forward : (turn compile source f c).Forward source c.pos := turn_forward f c
    rwa [passed] at forward

variable (compile source)

/-- The calls of a scan, each with what it starts from, and the turn that ended the last one. -/
structure Course (π : Type) where
  calls : List (Control × Cursor π)
  ending : Turn π

def loop (f : Control) (c : Cursor π) : Course π :=
  match passed : call compile source f c with
  | .pass (some g) behind =>
    have := call_forward passed
    let rest := loop g behind
    ⟨(f, c) :: rest.calls, rest.ending⟩
  | other => ⟨[(f, c)], other⟩
termination_by source.length - c.pos

end Loops

section Safety

/-- What holds of a cursor and the function that has the call next. -/
structure Inside (source : List Char) (next : Option Control) (c : Cursor π) : Prop where
  start_le_pos : c.start ≤ c.pos
  pos_le_length : c.pos ≤ source.length
  opened_iff : c.mode = .opened ↔ next = some .marker
  opener : c.mode = .opened → ∃ opening, c.kind = some opening ∧
    opening.braces <+: source.drop c.start ∧ c.start + opening.braces.length ≤ c.pos

variable (compile : String → Except String π) (source : List Char)

/-- The cursors of a scan before each of its turns and at its end, with the function that has the
call next. -/
inductive Reached : Option Control → Cursor π → Prop where
  | initial : Reached (some .empty) .initial
  | again {f : Control} {c behind : Cursor π} (before : Reached (some f) c)
      (taken : turn compile source f c = .again behind) : Reached (some f) behind
  | pass {f : Control} {next : Option Control} {c behind : Cursor π} (before : Reached (some f) c)
      (taken : turn compile source f c = .pass next behind) : Reached next behind

variable {compile source}

def Turn.Inside (source : List Char) (f : Control) : Turn π → Prop
  | .again c => Marker.Inside source (some f) c
  | .pass next c => Marker.Inside source next c
  | .fault _ index => index ≤ source.length
  | .stray => False

theorem moves_inside {f : Control} {c : Cursor π} {taken : Turn π}
    (moves : Moves compile source f c taken) (inside : Inside source (some f) c) :
    taken.Inside source f := by
  have low := inside.start_le_pos
  have high := inside.pos_le_length
  cases moves with
  | first fragment ahead =>
    have bound := piece_inside ahead
    exact ⟨Nat.le_add_right_of_le low, bound, by simp, by simp⟩
  | piece reads ahead =>
    have bound := piece_inside ahead
    refine ⟨Nat.le_add_right_of_le low, bound, inside.opened_iff, ?_⟩
    intro opened
    obtain ⟨opening, kind, braces, behind⟩ := inside.opener opened
    exact ⟨opening, kind, braces, Nat.le_add_right_of_le behind⟩
  | @opens f c before opening outside same ahead =>
    have bound := prefix_inside ahead opening.braces_length_pos
    refine ⟨Nat.le_add_right _ _, ?_, by simp, ?_⟩
    · simpa only [same] using bound
    · intro opened
      exact ⟨opening, rfl, by simpa only [same] using ahead, Nat.le_refl _⟩
  | path ahead compiled =>
    have bound := prefix_inside ahead (closer_length_pos _)
    exact ⟨Nat.le_add_right_of_le low, bound, by simp, by simp⟩
  | whole ahead compiled =>
    have bound := prefix_inside ahead (closer_length_pos _)
    exact ⟨Nat.le_add_right_of_le low, bound, by simp, by simp⟩
  | refused refused => exact Nat.le_trans low high
  | ends outside done =>
    have unopened : c.mode ≠ .opened := by simpa [inside.opened_iff] using outside
    exact ⟨low, high, by simpa using unopened, fun opened => absurd opened unopened⟩
  | unterminated done => exact Nat.le_trans low high
  | trailing here => exact high

theorem turn_inside {f : Control} {c : Cursor π} (inside : Inside source (some f) c) :
    (turn compile source f c).Inside source f :=
  moves_inside (turn_moves f c) inside

theorem reached_inside {next : Option Control} {c : Cursor π}
    (reached : Reached compile source next c) : Inside source next c := by
  induction reached with
  | initial =>
    have unopened : (Cursor.initial : Cursor π).mode ≠ .opened := by simp [Cursor.initial]
    exact ⟨Nat.le_refl 0, Nat.zero_le _, by simp [unopened], fun opened => absurd opened unopened⟩
  | @again f c behind before taken ih =>
    have kept : (turn compile source f c).Inside source f := turn_inside ih
    rwa [taken] at kept
  | @pass f next c behind before taken ih =>
    have kept : (turn compile source f c).Inside source f := turn_inside ih
    rwa [taken] at kept

theorem turn_reads (f : Control) (c : Cursor π) : turn compile source f c ≠ .stray := by
  intro stray
  have moves : Moves compile source f c (turn compile source f c) := turn_moves f c
  rw [stray] at moves
  cases moves

theorem call_reached {f : Control} {next : Option Control} {c behind : Cursor π}
    (before : Reached compile source (some f) c)
    (passed : call compile source f c = .pass next behind) :
    Reached compile source next behind := by
  fun_induction call compile source f c with
  | case1 c between taken here ih => exact ih (before.again taken) passed
  | case2 c last => exact before.pass passed

theorem loop_reached {f : Control} {c : Cursor π} (before : Reached compile source (some f) c) :
    ∀ made ∈ (loop compile source f c).calls, Reached compile source (some made.1) made.2 := by
  fun_induction loop compile source f c with
  | case1 f c g behind passed here rest ih =>
    intro made listed
    rcases List.mem_cons.mp listed with rfl | later
    · exact before
    · exact ih (call_reached before passed) made later
  | case2 f c last =>
    intro made listed
    obtain rfl := List.mem_singleton.mp listed
    exact before

theorem loop_calls_bounded {f : Control} {c : Cursor π}
    (before : Reached compile source (some f) c) :
    (loop compile source f c).calls.length + c.pos ≤ source.length + 1 := by
  fun_induction loop compile source f c with
  | case1 f c g behind passed here rest ih =>
    have bound := ih (call_reached before passed)
    have forward := call_forward passed
    simp only [List.length_cons, rest]
    omega
  | case2 f c last =>
    have bound := (reached_inside before).pos_le_length
    simp only [List.length_singleton]
    omega

end Safety

end Stencil.Marker
