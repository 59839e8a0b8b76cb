import Stencil.Marker.Lexeme

/-!
Scanning a template string. The scanner goes from state to state, each time over the longest
run of text, over one opener or over one body, until the string ends or shows a fault. A path is
compiled as soon as its marker is closed, so that its fault comes before any fault behind it.
-/
namespace Stencil.Marker

variable {π : Type}

/-- Where the scanner is. Tokens that have been read are kept last first; a marker that is open
remembers the rest of the string from its first brace on. -/
inductive Phase (π : Type) where
  | start
  | text (before : List (Token π))
  | path (before : List (Token π)) (opened : List Char)
  | whole (kind : Kind) (opened : List Char)
  | closed (kind : Kind) (path : π)

structure State (π : Type) where
  phase : Phase π
  rest : List Char

/-- A fault names its cause and the rest of the string from where it shows. -/
inductive Step (π : Type) where
  | fault (cause : Cause) (rest : List Char)
  | finish (reading : Reading π)
  | next (state : State π)

/-- No token is empty text. -/
def pushText (text : List Char) (before : List (Token π)) : List (Token π) :=
  if text.isEmpty then before else .text (String.ofList text) :: before

def finishText (text : List Char) (before : List (Token π)) : Reading π :=
  if before.isEmpty then .literal (String.ofList text)
  else .interpolation (pushText text before).reverse

def stepText (before : List (Token π)) (rest : List Char) : Step π :=
  let (text, opened) := takeText rest
  if opened.isEmpty then .finish (finishText text before)
  else .next ⟨.path (pushText text before) opened, opened.drop 2⟩

def stepBody (compile : String → Except String π) (triple : Bool) (opened rest : List Char)
    (close : π → Phase π) : Step π :=
  match takeBody? triple rest with
  | none => .fault .unterminated opened
  | some (body, after) =>
    match compile (String.ofList body) with
    | .error reason => .fault (.invalidPath (String.ofList body) reason) opened
    | .ok path => .next ⟨close path, after⟩

def step (compile : String → Except String π) : State π → Step π
  | ⟨.start, rest⟩ =>
    match takeOpener? rest with
    | some (kind, after) => .next ⟨.whole kind rest, after⟩
    | none => stepText [] rest
  | ⟨.text before, rest⟩ => stepText before rest
  | ⟨.path before opened, rest⟩ =>
    stepBody compile false opened rest fun path => .text (.path path :: before)
  | ⟨.whole kind opened, rest⟩ => stepBody compile (kind = .raw) opened rest (.closed kind)
  | ⟨.closed kind path, rest⟩ =>
    match rest with
    | [] => .finish (.whole kind path)
    | c :: _ => .fault (.trailing c) rest

theorem step_text_shrinks {before : List (Token π)} {rest : List Char} {s : State π}
    (h : stepText before rest = .next s) : s.rest.length < rest.length := by
  have := take_text_length rest
  unfold stepText at h
  split at h
  rename_i text opened heq
  split at h
  · simp at h
  · rename_i ho
    simp only [Step.next.injEq] at h
    subst h
    have : 0 < opened.length := by simpa [List.length_pos_iff] using ho
    simp_all; omega

theorem step_body_shrinks {compile : String → Except String π} {triple : Bool}
    {opened rest : List Char} {close : π → Phase π} {s : State π}
    (h : stepBody compile triple opened rest close = .next s) : s.rest.length < rest.length := by
  unfold stepBody at h
  split at h
  · simp at h
  · rename_i hb
    split at h
    · simp at h
    · simp only [Step.next.injEq] at h
      subst h
      exact take_body_length hb

theorem step_shrinks {compile : String → Except String π} {s t : State π}
    (h : step compile s = .next t) : t.rest.length < s.rest.length := by
  unfold step at h
  split at h
  · split at h
    · rename_i ho
      simp only [Step.next.injEq] at h
      subst h
      exact take_opener_length ho
    · exact step_text_shrinks h
  · exact step_text_shrinks h
  · exact step_body_shrinks h
  · exact step_body_shrinks h
  · split at h <;> simp at h

def run (compile : String → Except String π) (s : State π) :
    Except (Cause × List Char) (Reading π) :=
  match h : step compile s with
  | .fault cause rest => .error (cause, rest)
  | .finish reading => .ok reading
  | .next t =>
    have := step_shrinks h
    run compile t
termination_by s.rest.length

/-- Reads a template string; the index of a fault counts the characters before it. -/
def scan (compile : String → Except String π) (source : String) : Except Fault (Reading π) :=
  match run compile ⟨.start, source.toList⟩ with
  | .ok reading => .ok reading
  | .error (cause, rest) => .error ⟨cause, source, source.length - rest.length⟩

end Stencil.Marker
