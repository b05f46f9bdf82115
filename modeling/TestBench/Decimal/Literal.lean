import TestBench.Decimal.Binary64
import TestBench.Text.Whole
/-
  Decimal literals of floating-point numbers.

  A literal is an optional sign followed by `inf`, `infinity` or `nan` in any letter case, or by
  digits with an optional point and an optional power of ten.  At least one digit stands before or
  after the point.  The value is the exact decimal rounded once (`Binary64.ofDecimal`).
-/
namespace TestBench.Decimal

open TestBench.Text

/-- The ASCII letters in lower case, all other characters as they are. -/
def lowerAscii (s : List Char) : List Char := s.map Char.toLower

/-- The digits in front and the rest. -/
def spanDigits (s : List Char) : List Char × List Char :=
  (s.takeWhile Char.isDigit, s.dropWhile Char.isDigit)

/-- A number that digits write, zero for none. -/
def digitsValue (s : List Char) : Nat := (digits? 10 s).getD 0

/-- A power of ten: a whole number with an optional sign, nothing after it. -/
def exponent? (s : List Char) : Option Int :=
  let (negative, digits) := match s with
    | '-' :: rest => (true, rest)
    | '+' :: rest => (false, rest)
    | _ => (false, s)
  (digits? 10 digits).map fun n => if negative then -(n : Int) else (n : Int)

/-- The number that a literal without sign writes. -/
def magnitude? (negative : Bool) (s : List Char) : Option Binary64 :=
  let (whole, rest) := spanDigits s
  let (fraction, rest) := match rest with
    | '.' :: rest => spanDigits rest
    | _ => ([], rest)
  let power? : Option Int := match rest with
    | [] => some 0
    | c :: rest => if c = 'e' ∨ c = 'E' then exponent? rest else none
  if whole.isEmpty && fraction.isEmpty then none
  else power?.map fun power =>
    Binary64.ofDecimal negative (digitsValue (whole ++ fraction)) (power - fraction.length)

/-- Reads a literal of which nothing is left over. -/
def literal? (s : List Char) : Option Binary64 :=
  let (negative, body) := match s with
    | '-' :: rest => (true, rest)
    | '+' :: rest => (false, rest)
    | _ => (false, s)
  let word := lowerAscii body
  if word = "inf".toList ∨ word = "infinity".toList then some (.infinite negative)
  else if word = "nan".toList then some .nan
  else magnitude? negative body

end TestBench.Decimal
