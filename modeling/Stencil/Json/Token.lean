import Stencil.Text.StringLiteral

/-!
Tokens of JSON text: punctuation, strings, and words, which are numbers and names.
-/
namespace Stencil.Json

inductive Token where
  | openArray
  | closeArray
  | openObject
  | closeObject
  | comma
  | colon
  | string (s : List Char)
  | word (text : List Char)
deriving DecidableEq

namespace Token

def isSpace (c : Char) : Bool := c == ' ' || c == '\t' || c == '\n' || c == '\r'

def punctuation? : Char → Option Token
  | '[' => some openArray
  | ']' => some closeArray
  | '\x7b' => some openObject
  | '\x7d' => some closeObject
  | ',' => some comma
  | ':' => some colon
  | _ => none

def isWordChar (c : Char) : Bool := c.isAlphanum || c == '+' || c == '-' || c == '.'

/-- The first token, if any is left, and the text behind it. -/
def next? : List Char → Option (Option Token × List Char)
  | [] => some (none, [])
  | c :: rest =>
    if isSpace c then next? rest
    else if c = '"' then (Text.takeLiteral '"' rest).map fun (s, after) => (some (string s), after)
    else match punctuation? c with
      | some token => some (some token, rest)
      | none =>
        if isWordChar c then
          some (some (word (c :: rest.takeWhile isWordChar)), rest.dropWhile isWordChar)
        else none

theorem next_length {text after : List Char} {token : Token}
    (h : next? text = some (some token, after)) : after.length < text.length := by
  fun_induction next? text with
  | case1 => simp at h
  | case2 c rest _ ih =>
    have := ih h
    simp only [List.length_cons]; omega
  | case3 rest =>
    simp only [Option.map_eq_some_iff, Prod.mk.injEq, Prod.exists] at h
    obtain ⟨_, _, hl, _, rfl⟩ := h
    have := Text.take_literal_length hl
    simp only [List.length_cons]; omega
  | case4 => simp at h; simp [h]
  | case5 c rest =>
    simp only [Option.some.injEq, Prod.mk.injEq] at h
    rw [← h.2]
    have := (rest.dropWhile_suffix (p := isWordChar)).length_le
    simp only [List.length_cons]; omega
  | case6 => simp at h

def ofText (text : List Char) : Option (List Token) :=
  match h : next? text with
  | none => none
  | some (none, _) => some []
  | some (some token, after) =>
    have := next_length h
    (ofText after).map (token :: ·)
termination_by text.length

end Token
end Stencil.Json
