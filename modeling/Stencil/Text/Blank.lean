/-!
Blank characters and trimming. Blank are the white space of Unicode and the information
separators U+001C to U+001F.
-/
namespace Stencil.Text

def blankRanges : List (Nat × Nat) :=
  [(0x09, 0x0D), (0x1C, 0x20), (0x85, 0x85), (0xA0, 0xA0), (0x1680, 0x1680), (0x2000, 0x200A),
   (0x2028, 0x2029), (0x202F, 0x202F), (0x205F, 0x205F), (0x3000, 0x3000)]

def isBlank (c : Char) : Bool :=
  blankRanges.any fun range => range.1 ≤ c.toNat && c.toNat ≤ range.2

def trimEnd (text : List Char) : List Char := (text.reverse.dropWhile isBlank).reverse

def trim (text : List Char) : List Char := trimEnd (text.dropWhile isBlank)

theorem trim_end_starts (text : List Char) : trimEnd text <+: text := by
  have := text.reverse.dropWhile_suffix (p := isBlank)
  simpa [trimEnd] using List.reverse_prefix.mpr this

end Stencil.Text
