import Stencil.Marker.Basic

/-!
The pieces of a template string. A backslash before two or three braces makes them text, the
longer run first, both in text and in the body of a marker. In text two braces open a marker
unless an operator follows them; the openers with an operator count at the start of a string
only.
-/
namespace Stencil.Marker

def takeOpener? : List Char → Option (Kind × List Char)
  | '{' :: '{' :: '{' :: rest => some (.raw, rest)
  | '{' :: '{' :: '&' :: rest => some (.unquote, rest)
  | '{' :: '{' :: '#' :: rest => some (.sectionOf, rest)
  | '{' :: '{' :: '?' :: rest => some (.switch, rest)
  | _ => none

def isOperator (c : Char) : Bool := c ∈ ['{', '&', '#', '?']

/-- Two braces that open an interpolated path: nothing or no operator follows them. -/
def opensPath : List Char → Bool
  | '{' :: '{' :: rest => !rest.head?.any isOperator
  | _ => false

/-- The text up to the next path, unescaped, and the rest from its first brace on. -/
def takeText : List Char → List Char × List Char
  | [] => ([], [])
  | '\\' :: '{' :: '{' :: '{' :: rest => ((takeText rest).map ('{' :: '{' :: '{' :: ·) id)
  | '\\' :: '{' :: '{' :: rest => ((takeText rest).map ('{' :: '{' :: ·) id)
  | c :: rest =>
    if opensPath (c :: rest) then ([], c :: rest) else (takeText rest).map (c :: ·) id

/-- What follows the closing braces, three of them after `triple` braces and else two. -/
def takeCloser? : (triple : Bool) → List Char → Option (List Char)
  | true, '}' :: '}' :: '}' :: rest => some rest
  | false, '}' :: '}' :: rest => some rest
  | _, _ => none

def takeBody? (triple : Bool) : List Char → Option (List Char × List Char)
  | [] => none
  | '\\' :: '{' :: '{' :: '{' :: rest =>
    (takeBody? triple rest).map (Prod.map ('{' :: '{' :: '{' :: ·) id)
  | '\\' :: '{' :: '{' :: rest => (takeBody? triple rest).map (Prod.map ('{' :: '{' :: ·) id)
  | c :: rest =>
    match takeCloser? triple (c :: rest) with
    | some after => some ([], after)
    | none => (takeBody? triple rest).map (Prod.map (c :: ·) id)

theorem take_opener_length {text rest : List Char} {kind : Kind}
    (h : takeOpener? text = some (kind, rest)) : rest.length < text.length := by
  unfold takeOpener? at h
  split at h <;> simp at h <;> simp [← h.2] <;> omega

theorem take_text_length (text : List Char) : (takeText text).2.length ≤ text.length := by
  fun_induction takeText text <;> simp_all <;> omega

theorem take_closer_length {triple : Bool} {text rest : List Char}
    (h : takeCloser? triple text = some rest) : rest.length < text.length := by
  unfold takeCloser? at h
  split at h <;> cases h
  · simp only [List.length_cons]
    omega
  · simp only [List.length_cons]
    omega

theorem take_body_length {triple : Bool} {text body rest : List Char}
    (h : takeBody? triple text = some (body, rest)) : rest.length < text.length := by
  fun_induction takeBody? triple text generalizing body rest with
  | case1 => simp at h
  | case2 text ih | case3 text _ ih =>
    simp only [Option.map_eq_some_iff, Prod.exists, Prod.map_apply, Prod.mk.injEq, id] at h
    obtain ⟨_, _, hb, _, rfl⟩ := h
    have := ih hb
    simp only [List.length_cons]; omega
  | case4 c text _ _ after ha =>
    simp only [Option.some.injEq, Prod.mk.injEq] at h
    exact h.2 ▸ take_closer_length ha
  | case5 c text _ _ _ ih =>
    simp only [Option.map_eq_some_iff, Prod.exists, Prod.map_apply, Prod.mk.injEq, id] at h
    obtain ⟨_, _, hb, _, rfl⟩ := h
    have := ih hb
    simp only [List.length_cons]; omega

end Stencil.Marker
