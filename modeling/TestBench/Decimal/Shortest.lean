import TestBench.Decimal.Binary64
/-
  The fewest decimal digits that read back as the same number.

  1. The reals that round to a finite number form an interval around it; the ends belong to it iff
     the mantissa is even.  With everything scaled by the same factor the number and the two ends
     are naturals over one denominator (`Interval`).
  2. On the grid of multiples of a power of ten the number lies between two neighbours.  If the grid
     has a point in the interval then one of the two neighbours is in it, so testing both decides
     the grid (`Interval.onGrid?`).
  3. Grids are tried from one digit up to seventeen; the first with a hit gives the digits, of two
     hits the nearer, at a tie the even one (`shortest`).
  4. `FloatStyle` says how digits are laid out; it is the only part that differs between formats.
-/
namespace TestBench.Decimal

/-! ## The interval of a number -/

/-- `low`, `value` and `high` over the denominator `den`; the ends count iff `closed`. -/
structure Interval where
  low : Nat
  value : Nat
  high : Nat
  den : Nat
  closed : Bool

/-- The reals that round to `mantissa * 2 ^ exponent`, for a positive mantissa. -/
def Interval.around (mantissa : Nat) (exponent : Int) : Interval :=
  let below := if mantissa = Nat.pow 2 52 ∧ exponent ≠ Binary64.lowestExponent then 1 else 2
  let scale (k : Nat) : Nat × Nat := match exponent - 2 with
    | .ofNat e => (k * Nat.pow 2 e, 1)
    | .negSucc e => (k, Nat.pow 2 (e + 1))
  { low := (scale (4 * mantissa - below)).1
    value := (scale (4 * mantissa)).1
    high := (scale (4 * mantissa + 2)).1
    den := (scale 1).2
    closed := mantissa % 2 = 0 }

/-- A decimal: `digits * Nat.pow 10 exponent`. -/
structure Scaled where
  digits : Nat
  exponent : Int
  deriving Repr, DecidableEq

/-- Whether `n * 10 ^ k`, given as a numerator over the same denominator, lies in the interval. -/
def Interval.holds (i : Interval) (point den : Nat) : Bool :=
  if i.closed then i.low * den ≤ point ∧ point ≤ i.high * den
  else i.low * den < point ∧ point < i.high * den

/-- The nearest point of the grid of multiples of `10 ^ k` that lies in the interval. -/
def Interval.onGrid? (i : Interval) (k : Int) : Option Scaled :=
  -- `unit / den` is one step of the grid in units of `1 / i.den`
  let (unit, den) : Nat × Nat := match k with
    | .ofNat e => (i.den * Nat.pow 10 e, 1)
    | .negSucc e => (i.den, Nat.pow 10 (e + 1))
  let v := i.value * den
  let n := v / unit
  let r := v % unit
  let lower := i.holds (n * unit) den
  let upper := i.holds ((n + 1) * unit) den
  let nearest := if 2 * r < unit ∨ (2 * r = unit ∧ n % 2 = 0) then n else n + 1
  if lower && upper then some ⟨nearest, k⟩
  else if lower then some ⟨n, k⟩
  else if upper then some ⟨n + 1, k⟩
  else none

/-! ## The digits -/

/-- Whether `10 ^ e ≤ num / den`. -/
def reachesTen (num den : Nat) : Int → Bool
  | .ofNat e => den * Nat.pow 10 e ≤ num
  | .negSucc e => den ≤ num * Nat.pow 10 (e + 1)

/-- The largest `e` with `10 ^ e ≤ num / den`: a guess from the binary logarithm, then corrected. -/
def floorLog10 (num den : Nat) : Int :=
  let guess := Binary64.floorLog2 num den * 30103 / 100000
  if reachesTen num den (guess + 1) then guess + 1
  else if reachesTen num den guess then guess
  else guess - 1

/-- Drops zeros at the end of the digits, at most `fuel` of them. -/
def Scaled.strip : Nat → Scaled → Scaled
  | 0, d => d
  | fuel + 1, d =>
    if d.digits ≠ 0 ∧ d.digits % 10 = 0 then strip fuel ⟨d.digits / 10, d.exponent + 1⟩ else d

/-- The fewest digits that read back as `mantissa * 2 ^ exponent`; zero has the digit 0. -/
def shortest (mantissa : Nat) (exponent : Int) : Scaled :=
  if mantissa = 0 then ⟨0, 0⟩
  else
    let i := Interval.around mantissa exponent
    let top := floorLog10 i.value i.den
    match (List.range 17).findSome? fun (n : Nat) => i.onGrid? (top - n) with
    | some d => d.strip 20
    | none => ⟨0, 0⟩

/-! ## Layout -/

/-- How digits are laid out.  The point position `p` of a number is the power of ten just above
    its first digit; positions with `low < p ≤ high` are written without a power of ten. -/
structure FloatStyle where
  low : Option Int
  high : Option Int
  /-- The mark in front of a positive power of ten. -/
  plus : String
  nan : String
  infinity : String

namespace FloatStyle

def positional (style : FloatStyle) (p : Int) : Bool :=
  style.low.all (· < p) && style.high.all (p ≤ ·)

def zeros (n : Nat) : String := String.ofList (List.replicate n '0')

/-- Digits and a power of ten as text; a whole number ends in `.0`. -/
def layout (style : FloatStyle) (d : Scaled) : String :=
  let ds := (toString d.digits).toList
  let p : Int := ds.length + d.exponent
  if style.positional p then
    if 0 ≤ d.exponent then String.ofList ds ++ zeros d.exponent.toNat ++ ".0"
    else if 0 < p then
      String.ofList (ds.take p.toNat) ++ "." ++ String.ofList (ds.drop p.toNat)
    else "0." ++ zeros (-p).toNat ++ String.ofList ds
  else
    let mantissa := match ds with
      | [] => ""
      | [c] => String.singleton c
      | c :: rest => String.singleton c ++ "." ++ String.ofList rest
    let e := p - 1
    mantissa ++ "e" ++ (if 0 ≤ e then style.plus else "-") ++ toString e.natAbs

/-- The text of a number. -/
def text (style : FloatStyle) : Binary64 → String
  | .nan => style.nan
  | .infinite s => (if s then "-" else "") ++ style.infinity
  | .finite s m e => (if s then "-" else "") ++ style.layout (shortest m e)

end FloatStyle
end TestBench.Decimal
