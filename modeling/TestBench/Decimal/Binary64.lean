/-
  Binary floating-point numbers of 64 bits, as exact data.

  1. A finite number is a sign, a mantissa below 2^53 and a power of two; infinities and the
     number that is none are constructors of their own.  No machine float is involved, so every
     operation here reduces in the logic.
  2. `ofRatio` rounds a quotient of naturals to the nearest number, a tie to the even mantissa.
     It is the only place where rounding happens: a product or a quotient of two numbers is the
     rounded exact result.
  3. `less` and `same` order the numbers by their exact values; the number that is none is in
     neither relation with anything.
-/
namespace TestBench.Decimal

/-- A binary floating-point number of 64 bits; `finite s m e` is `m * 2 ^ e`, negated iff `s`. -/
inductive Binary64 where
  | nan
  | infinite (negative : Bool)
  | finite (negative : Bool) (mantissa : Nat) (exponent : Int)
  deriving Repr, DecidableEq, Inhabited

namespace Binary64

/-! ## Rounding -/

/-- The power of two of the last place of the smallest numbers. -/
def lowestExponent : Int := -1074

/-- The power of two of the last place of the largest numbers. -/
def highestExponent : Int := 971

def zero (negative : Bool) : Binary64 := .finite negative 0 lowestExponent

/-- The quotient rounded to the nearest natural, a tie to the even one. -/
def roundHalfEven (num den : Nat) : Nat :=
  let q := num / den
  let r := num % den
  if 2 * r < den then q
  else if den < 2 * r then q + 1
  else if q % 2 = 0 then q else q + 1

/-- `num / den / 2 ^ e`, rounded to the nearest natural. -/
def scaled (num den : Nat) : Int → Nat
  | .ofNat e => roundHalfEven num (den * Nat.pow 2 e)
  | .negSucc e => roundHalfEven (num * Nat.pow 2 (e + 1)) den

/-- Whether `2 ^ e ≤ num / den`. -/
def reaches (num den : Nat) : Int → Bool
  | .ofNat e => den * Nat.pow 2 e ≤ num
  | .negSucc e => den ≤ num * Nat.pow 2 (e + 1)

/-- The largest `e` with `2 ^ e ≤ num / den`, for a positive quotient. -/
def floorLog2 (num den : Nat) : Int :=
  let guess : Int := (Nat.log2 num : Int) - Nat.log2 den
  if reaches num den guess then guess else guess - 1

/-- The number nearest to `num / den`, negated iff asked; beyond the largest it is infinite. -/
def ofRatio (negative : Bool) (num den : Nat) : Binary64 :=
  if num = 0 then zero negative
  else
    let e := max (floorLog2 num den - 52) lowestExponent
    let m := scaled num den e
    let (m, e) := if m = Nat.pow 2 53 then (Nat.pow 2 52, e + 1) else (m, e)
    if highestExponent < e then .infinite negative
    else if m = 0 then zero negative
    else .finite negative m e

/-- The number nearest to a natural. -/
def ofNat (n : Nat) : Binary64 := ofRatio false n 1

/-- The number nearest to `digits * 10 ^ exponent`.  A magnitude far outside the range is decided
    by the count of digits, so that no huge power is formed. -/
def ofDecimal (negative : Bool) (digits : Nat) (exponent : Int) : Binary64 :=
  let places : Int := (Nat.log2 digits : Int) * 30103 / 100000 + exponent
  if digits = 0 ∨ places < -400 then zero negative
  else if 400 < places then .infinite negative
  else match exponent with
    | .ofNat e => ofRatio negative (digits * Nat.pow 10 e) 1
    | .negSucc e => ofRatio negative digits (Nat.pow 10 (e + 1))

/-! ## Order -/

/-- The exact value as a numerator and a denominator, for a finite number. -/
def ratio? : Binary64 → Option (Bool × Nat × Nat)
  | .finite s m (.ofNat e) => some (s, m * Nat.pow 2 e, 1)
  | .finite s m (.negSucc e) => some (s, m, Nat.pow 2 (e + 1))
  | _ => none

/-- A rank above that of every finite number. -/
def infiniteRank : Int := (2 : Int).shiftLeft 2100

/-- A whole number in the order of the numbers: the value in units of the last place of the
    smallest numbers, infinities beyond every finite value. -/
def rank? : Binary64 → Option Int
  | .nan => none
  | .infinite s => some (if s then -infiniteRank else infiniteRank)
  | .finite s m e =>
    let units : Int := (m * Nat.pow 2 (e - lowestExponent).toNat : Nat)
    some (if s then -units else units)

/-- Strictly less; false when either side is no number. -/
def less (a b : Binary64) : Bool :=
  match a.rank?, b.rank? with
  | some x, some y => x < y
  | _, _ => false

/-- The same value, so zero equals its negative; false when either side is no number. -/
def same (a b : Binary64) : Bool :=
  match a.rank?, b.rank? with
  | some x, some y => x = y
  | _, _ => false

/-- Less or the same; false when either side is no number. -/
def atMost (a b : Binary64) : Bool :=
  match a.rank?, b.rank? with
  | some x, some y => x ≤ y
  | _, _ => false

/-! ## Arithmetic -/

def isNegative : Binary64 → Bool
  | .nan => false
  | .infinite s => s
  | .finite s _ _ => s

def isFinite : Binary64 → Bool
  | .finite .. => true
  | _ => false

def negate : Binary64 → Binary64
  | .nan => .nan
  | .infinite s => .infinite !s
  | .finite s m e => .finite (!s) m e

/-- The rounded product of two finite numbers. -/
def mul (a b : Binary64) : Binary64 :=
  match a.ratio?, b.ratio? with
  | some (s, n, d), some (t, n', d') => ofRatio (s != t) (n * n') (d * d')
  | _, _ => .nan

/-- The rounded quotient of two finite numbers; a zero divisor gives an infinity, or no number. -/
def div (a b : Binary64) : Binary64 :=
  match a.ratio?, b.ratio? with
  | some (s, n, d), some (t, n', d') =>
    if n' = 0 then (if n = 0 then .nan else .infinite (s != t))
    else ofRatio (s != t) (n * d') (d * n')
  | _, _ => .nan

/-! ## Laws of the order -/

theorem same_iff {a b : Binary64} : a.same b = true ↔ ∃ x, a.rank? = some x ∧ b.rank? = some x := by
  unfold same
  cases a.rank? <;> cases b.rank? <;> simp [eq_comm]

theorem rank?_eq_none_iff {a : Binary64} : a.rank? = none ↔ a = .nan := by
  cases a <;> simp [rank?]

end Binary64
end TestBench.Decimal
