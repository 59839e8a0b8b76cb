import Stencil.Text.Hex

/-!
String literals with the escapes of JSON between a quote of choice: a backslash before the
quote, a backslash or a slash, a letter for a control character, or four hexadecimal digits of
a UTF-16 unit. Reading undoes every escape and refuses control characters and lone surrogates.
-/
namespace Stencil.Text

def controlLetter? (c : Char) : Option Char :=
  if c = '\x08' then some 'b'
  else if c = '\t' then some 't'
  else if c = '\n' then some 'n'
  else if c = '\x0c' then some 'f'
  else if c = '\r' then some 'r'
  else none

def letterControl? (c : Char) : Option Char :=
  if c = 'b' then some '\x08'
  else if c = 't' then some '\t'
  else if c = 'n' then some '\n'
  else if c = 'f' then some '\x0c'
  else if c = 'r' then some '\r'
  else none

def unitEscape (unit : Nat) : List Char := '\\' :: 'u' :: hex 4 unit

def highSurrogate (code : Nat) : Nat := 0xD800 + (code - 0x10000) / 0x400

def lowSurrogate (code : Nat) : Nat := 0xDC00 + (code - 0x10000) % 0x400

def numberEscape (c : Char) : List Char :=
  if c.toNat < 0x10000 then unitEscape c.toNat
  else unitEscape (highSurrogate c.toNat) ++ unitEscape (lowSurrogate c.toNat)

def literalChar (quote : Char) (plain : Char → Bool) (c : Char) : List Char :=
  if c = quote ∨ c = '\\' then ['\\', c]
  else match controlLetter? c with
    | some letter => ['\\', letter]
    | none => if plain c then [c] else numberEscape c

def literal (quote : Char) (plain : Char → Bool) (text : List Char) : List Char :=
  quote :: (text.flatMap (literalChar quote plain) ++ [quote])

def escapedChar? (quote c : Char) : Option Char :=
  if c = quote ∨ c = '\\' ∨ c = '/' then some c else letterControl? c

/-- Reads up to the closing quote. The units are code points, except that escaped surrogates
are still apart. -/
def takeUnits (quote : Char) : List Char → Option (List Nat × List Char)
  | [] => none
  | '\\' :: 'u' :: a :: b :: c :: d :: rest =>
    (hexValue? [a, b, c, d]).bind fun unit => (takeUnits quote rest).map (Prod.map (unit :: ·) id)
  | '\\' :: c :: rest =>
    (escapedChar? quote c).bind fun char =>
      (takeUnits quote rest).map (Prod.map (char.toNat :: ·) id)
  | c :: rest =>
    if c = quote then some ([], rest)
    else if c = '\\' ∨ c.toNat < 0x20 then none
    else (takeUnits quote rest).map (Prod.map (c.toNat :: ·) id)

def isHigh (unit : Nat) : Bool := 0xD800 ≤ unit && unit < 0xDC00

def isLow (unit : Nat) : Bool := 0xDC00 ≤ unit && unit < 0xE000

/-- Joins a high surrogate with the low one behind it; no other surrogate may remain. -/
def joinUnits : List Nat → Option (List Char)
  | [] => some []
  | [unit] => if isHigh unit || isLow unit then none else some [Char.ofNat unit]
  | unit :: next :: rest =>
    if isHigh unit then
      if isLow next then
        (joinUnits rest).map
          (Char.ofNat (0x10000 + (unit - 0xD800) * 0x400 + (next - 0xDC00)) :: ·)
      else none
    else if isLow unit then none
    else (joinUnits (next :: rest)).map (Char.ofNat unit :: ·)

def takeLiteral (quote : Char) (text : List Char) : Option (List Char × List Char) :=
  (takeUnits quote text).bind fun (units, after) => (joinUnits units).map (·, after)

theorem take_units_length {quote : Char} {text : List Char} {units : List Nat} {after : List Char}
    (h : takeUnits quote text = some (units, after)) : after.length < text.length := by
  fun_induction takeUnits quote text generalizing units after with
  | case1 => simp at h
  | case2 a b c d rest ih | case3 c rest _ ih =>
    simp only [Option.bind_eq_some_iff, Option.map_eq_some_iff, Prod.exists, Prod.map_apply,
      Prod.mk.injEq, id] at h
    obtain ⟨_, _, _, _, hr, _, rfl⟩ := h
    have := ih hr
    simp only [List.length_cons]; omega
  | case4 => simp at h; simp [h]
  | case5 => simp at h
  | case6 c rest _ _ _ _ ih =>
    simp only [Option.map_eq_some_iff, Prod.exists, Prod.map_apply, Prod.mk.injEq, id] at h
    obtain ⟨_, _, hr, _, rfl⟩ := h
    have := ih hr
    simp only [List.length_cons]; omega

theorem take_literal_length {quote : Char} {text value after : List Char}
    (h : takeLiteral quote text = some (value, after)) : after.length < text.length := by
  simp only [takeLiteral, Option.bind_eq_some_iff, Option.map_eq_some_iff, Prod.exists,
    Prod.mk.injEq] at h
  obtain ⟨_, _, hu, _, _, _, rfl⟩ := h
  exact take_units_length hu

end Stencil.Text
