import Stencil.Number.Decimal

/-!
Numerals: an optional minus sign, decimal digits, an optional fraction and an optional
exponent. A numeral without fraction and exponent is a whole number.
-/
namespace Stencil

/-- The parts of a numeral; `fraction` is empty where no point is written. -/
structure Numeral where
  negative : Bool
  whole : List Char
  fraction : List Char
  exponent : Option (Bool × List Char)
deriving DecidableEq

namespace Numeral

def takeMinus : List Char → Bool × List Char
  | '-' :: rest => (true, rest)
  | text => (false, text)

def takeFraction? : List Char → Option (List Char × List Char)
  | '.' :: rest =>
    match rest.takeWhile Char.isDigit with
    | [] => none
    | digits => some (digits, rest.dropWhile Char.isDigit)
  | text => some ([], text)

/-- A whole text as exponent: empty, or a letter, an optional sign and digits. -/
def exponent? : List Char → Option (Option (Bool × List Char))
  | [] => some none
  | c :: rest =>
    if c = 'e' ∨ c = 'E' then
      let (negative, digits) := match rest with
        | '+' :: digits => (false, digits)
        | _ => takeMinus rest
      if digits.isEmpty || !digits.all Char.isDigit then none else some (some (negative, digits))
    else none

def read? (text : List Char) : Option Numeral :=
  let (negative, unsigned) := takeMinus text
  match unsigned.takeWhile Char.isDigit with
  | [] => none
  | whole =>
    (takeFraction? (unsigned.dropWhile Char.isDigit)).bind fun (fraction, rest) =>
      (exponent? rest).map fun exponent => ⟨negative, whole, fraction, exponent⟩

def isWhole (n : Numeral) : Bool := n.fraction.isEmpty && n.exponent.isNone

def digitsValue (digits : List Char) : Nat := Nat.ofDigitChars 10 digits 0

def signed (negative : Bool) (magnitude : Nat) : Int :=
  if negative then -(magnitude : Int) else magnitude

def toInt (n : Numeral) : Int := signed n.negative (digitsValue n.whole)

def exponentValue (n : Numeral) : Int :=
  match n.exponent with
  | none => 0
  | some (negative, digits) => signed negative (digitsValue digits)

def toDecimal (n : Numeral) : Decimal :=
  ⟨n.negative, digitsValue (n.whole ++ n.fraction), n.exponentValue - n.fraction.length⟩

end Numeral
end Stencil
