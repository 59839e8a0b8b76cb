import Stencil.Text.Blank

/-!
Lines of a text and the place of an index in them. A line keeps the characters that end it, so
the lines concatenate to the text; a carriage return and a line feed end one line together.
-/
namespace Stencil.Text

def endsLine (c : Char) : Bool :=
  c ∈ ['\n', '\r', '\x0b', '\x0c', '\x1c', '\x1d', '\x1e', '\u0085', '\u2028', '\u2029']

def splitLines : List Char → List (List Char)
  | [] => []
  | '\r' :: '\n' :: rest => ['\r', '\n'] :: splitLines rest
  | c :: rest =>
    if endsLine c then [c] :: splitLines rest
    else match splitLines rest with
      | [] => [[c]]
      | line :: lines => (c :: line) :: lines

theorem flatten_split_lines (text : List Char) : (splitLines text).flatten = text := by
  fun_induction splitLines text <;> simp_all

/-- A line counted from one, a column counted from zero, and the line without the blanks at its
end. The column of a negative index is negative. -/
structure Place where
  line : Nat
  column : Int
  current : List Char
deriving DecidableEq

/-- The first line that ends after `index`, where the first of `lines` has the given number and
starts at `start`. -/
def placeFrom (index : Int) (number start : Nat) : List (List Char) → Option Place
  | [] => none
  | line :: lines =>
    if index < (start + line.length : Nat) then some ⟨number, index - start, trimEnd line⟩
    else placeFrom index (number + 1) (start + line.length) lines

def place? (text : List Char) (index : Int) : Option Place :=
  placeFrom index 1 0 (splitLines text)

end Stencil.Text
