import Stencil.Number.Shortest

/-!
The text of numbers. A binary64 number is written with its shortest digits, positionally while
the exponent of its leading digit is at least -4 and below 16, and otherwise with a signed
exponent of at least two digits. A positional number always shows a fraction.
-/
namespace Stencil

def signText (negative : Bool) (text : List Char) : List Char :=
  if negative then '-' :: text else text

def integerText (n : Int) : List Char := signText (n < 0) (Nat.toDigits 10 n.natAbs)

/-- The most digits of a whole number that is read from text or written as text; zeros in front
count, the sign does not. -/
def digitLimit : Nat := 4300

def digitCount (n : Int) : Nat := (Nat.toDigits 10 n.natAbs).length

/-- What is said of a whole number beyond the limit; of one that is read, its digits are counted. -/
def digitLimitMessage (count : Option Nat) : String :=
  let counted := match count with
    | some n => ": value has " ++ String.ofList (Nat.toDigits 10 n) ++ " digits"
    | none => ""
  "Exceeds the limit (" ++ String.ofList (Nat.toDigits 10 digitLimit)
    ++ " digits) for integer string conversion" ++ counted
    ++ "; use sys.set_int_max_str_digits() to increase the limit"

def dropTrailingZeros (digits : List Char) : List Char :=
  (digits.reverse.dropWhile (· == '0')).reverse

def positional (digits : List Char) (leading : Int) : List Char :=
  if leading < 0 then '0' :: '.' :: (List.replicate (-leading - 1).toNat '0' ++ digits)
  else
    let whole := leading.toNat + 1
    let padded := digits ++ List.replicate (whole - digits.length) '0'
    let fraction := digits.drop whole
    padded.take whole ++ '.' :: (if fraction.isEmpty then ['0'] else fraction)

def exponential (digits : List Char) (leading : Int) : List Char :=
  let fraction := digits.drop 1
  let exponent := Nat.toDigits 10 leading.natAbs
  digits.take 1 ++ (if fraction.isEmpty then [] else '.' :: fraction) ++
    'e' :: (if leading < 0 then '-' else '+') ::
    (List.replicate (2 - exponent.length) '0' ++ exponent)

def Decimal.layout (d : Decimal) : List Char :=
  if d.digits = 0 then signText d.negative ['0', '.', '0']
  else
    let digits := dropTrailingZeros (Nat.toDigits 10 d.digits)
    let leading := d.order - 1
    signText d.negative
      (if -4 ≤ leading ∧ leading < 16 then positional digits leading
       else exponential digits leading)

def Binary64.text : Binary64 → List Char
  | .finite x =>
    if x.significand = 0 then signText x.negative ['0', '.', '0'] else x.shortest.layout
  | .infinite negative => signText negative ['i', 'n', 'f']
  | .nan => ['n', 'a', 'n']

def Binary64.jsonText : Binary64 → List Char
  | .infinite negative => signText negative ['I', 'n', 'f', 'i', 'n', 'i', 't', 'y']
  | .nan => ['N', 'a', 'N']
  | x => x.text

end Stencil
