/-
  Whole numbers in decimal.

  `wholeBelow limit` reads one or more ASCII digits, with at most one plus sign in front; leading
  zeros are allowed, and a value of `limit` or more is refused.  Words of 64 bits are the common
  case (`word64`).
-/
namespace TestBench.Text

/-- The value of an ASCII digit. -/
def digitValue? (c : Char) : Option Nat :=
  if '0' ≤ c ∧ c ≤ '9' then some (c.toNat - '0'.toNat) else none

/-- The value of an ASCII digit or letter, in a base of at most 36. -/
def digitIn? (base : Nat) (c : Char) : Option Nat :=
  let v? : Option Nat :=
    if '0' ≤ c ∧ c ≤ '9' then some (c.toNat - '0'.toNat)
    else if 'a' ≤ c ∧ c ≤ 'z' then some (c.toNat - 'a'.toNat + 10)
    else if 'A' ≤ c ∧ c ≤ 'Z' then some (c.toNat - 'A'.toNat + 10)
    else none
  v?.filter (· < base)

/-- The number written by one or more digits of a base. -/
def digits? (base : Nat) : List Char → Option Nat
  | [] => none
  | s => s.foldlM (fun n c => (digitIn? base c).map (n * base + ·)) 0

/-- Digits with at most one plus sign in front, of a value below `limit`. -/
def wholeBelow (limit : Nat) (s : List Char) : Option Nat :=
  let digits := match s with
    | '+' :: rest => rest
    | _ => s
  (digits? 10 digits).filter (· < limit)

/-- The number of values of a 64-bit word. -/
def wordLimit : Nat := Nat.pow 2 64

/-- A whole number that fits a word of 64 bits. -/
def word64 (s : List Char) : Option Nat := wholeBelow wordLimit s

end TestBench.Text
