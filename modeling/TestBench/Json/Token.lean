import TestBench.Json.Basic
import TestBench.Decimal.Literal
/-
  The lexical units of JSON.

  1. A number is read digit by digit into a word of 64 bits.  Digits that no longer fit are counted
     but not kept, and the kept digits are scaled by one or more powers of ten, each step rounded
     (`scale?`); a value that grows beyond every finite number is refused.
  2. The text is cut into tokens by one fold over its characters; the state is the unit under
     construction (`Scan`).
-/
namespace TestBench.Json

open TestBench.Decimal TestBench.Text

/-! ## Numbers -/

/-- Digits kept while they fit a word of 64 bits; `lost` counts those that did not. -/
structure Significand where
  kept : Nat
  lost : Nat

/-- Adds digits; from the first that does not fit, all are only counted. -/
def Significand.push (s : Significand) : List Char → Significand
  | [] => s
  | c :: rest =>
    let next := s.kept * 10 + (c.toNat - '0'.toNat)
    if s.lost = 0 ∧ next < wordLimit then Significand.push ⟨next, 0⟩ rest
    else Significand.push ⟨s.kept, s.lost + 1⟩ rest

/-- Multiplies by `10 ^ power`, in steps of at most 308 downwards; refuses an infinite result. -/
def scale? : Nat → Binary64 → Int → Option Binary64
  | 0, _, _ => none
  | fuel + 1, x, power =>
    let step := power.natAbs
    if step ≤ 308 then
      let ten := Binary64.ofRatio false (Nat.pow 10 step) 1
      if 0 ≤ power then
        let y := x.mul ten
        if y.isFinite then some y else none
      else some (x.div ten)
    else if x.same (Binary64.zero false) then some x
    else if 0 ≤ power then none
    else scale? fuel (x.div (Binary64.ofRatio false (Nat.pow 10 308) 1)) (power + 308)

/-- The number with the given digits and power of ten, its magnitude scaled before the sign. -/
def scaled? (negative : Bool) (digits : Nat) (power : Int) : Option Number :=
  (scale? 8 (Binary64.ofNat digits) power).map fun x => .float (if negative then x.negate else x)

/-- Whether digits begin with a zero that is not the only one. -/
def paddedZero : List Char → Bool
  | '0' :: _ :: _ => true
  | _ => false

/-- The whole number that digits write, as far as a word of 64 bits holds it. -/
def whole? (negative : Bool) (s : Significand) : Option Number :=
  if s.lost ≠ 0 then scaled? negative s.kept s.lost
  else if negative then
    if s.kept = 0 ∨ Nat.pow 2 63 < s.kept then
      some (.float (Binary64.ofNat s.kept).negate)
    else some (.int (-(s.kept : Int)))
  else some (.int s.kept)

/-- The power of ten after the mark `e`; one too large for any scaling is cut to a large one. -/
def power? (s : List Char) : Option Int :=
  (exponent? s).map fun n => max (-1000000) (min n 1000000)

/-- Reads a number of which nothing is left over. -/
def number? (s : List Char) : Option Number :=
  let (negative, body) := match s with
    | '-' :: rest => (true, rest)
    | _ => (false, s)
  let (digits, rest) := spanDigits body
  let significand := Significand.push ⟨0, 0⟩ digits
  if digits.isEmpty || paddedZero digits then none
  else if rest.isEmpty then whole? negative significand
  else
    let fraction? : Option (List Char × List Char) := match rest with
      | '.' :: rest =>
        let (fraction, rest) := spanDigits rest
        if fraction.isEmpty then none else some (fraction, rest)
      | _ => some ([], rest)
    fraction?.bind fun (fraction, rest) =>
      let all := significand.push fraction
      let places : Int := (all.lost : Int) - fraction.length
      match rest with
      | [] => scaled? negative all.kept places
      | c :: rest =>
        if c = 'e' ∨ c = 'E' then
          (power? rest).bind fun n => scaled? negative all.kept (places + n)
        else none

/-! ## Tokens -/

inductive Token where
  | mark (c : Char)
  | text (s : String)
  | atom (v : Json)

/-- What a run of letters, digits and signs stands for. -/
def atom? (s : List Char) : Option Json :=
  if s = "null".toList then some .null
  else if s = "true".toList then some (.bool true)
  else if s = "false".toList then some (.bool false)
  else (number? s).map .number

/-- The unit under construction; characters read so far stand last one first. -/
inductive Scan where
  | between
  | atom (done : List Char)
  | text (done : List Char)
  | escape (done : List Char)
  /-- Inside a code of four digits; `high` is the first half of a pair. -/
  | code (done : List Char) (high : Option Nat) (missing value : Nat)
  /-- Behind the first half of a pair; the flag says that the backslash was read. -/
  | second (done : List Char) (high : Nat) (slash : Bool)

/-- The state of the fold: the unit under construction and the finished tokens, last one first. -/
abbrev ScanState := Scan × List Token

def isAtomChar (c : Char) : Bool := c.isAlphanum || c = '-' || c = '+' || c = '.'

def isMark (c : Char) : Bool := "[]\x7b\x7d:,".toList.contains c

/-- A character outside strings and atoms. -/
def outside (done : List Token) (c : Char) : Option ScanState :=
  if c = ' ' ∨ c = '\n' ∨ c = '\t' ∨ c = '\r' then some (.between, done)
  else if isMark c then some (.between, .mark c :: done)
  else if c = '"' then some (.text [], done)
  else if isAtomChar c then some (.atom [c], done)
  else none

/-- The character that a letter after a backslash stands for. -/
def escape? (c : Char) : Option Char :=
  match c with
  | '"' => some '"'
  | '\\' => some '\\'
  | '/' => some '/'
  | 'b' => some (Char.ofNat 8)
  | 'f' => some (Char.ofNat 12)
  | 'n' => some '\n'
  | 'r' => some '\r'
  | 't' => some '\t'
  | _ => none

/-- A finished code of four digits. -/
def finishCode (done : List Char) (high : Option Nat) (value : Nat) : Option Scan :=
  match high with
  | some h =>
    if 0xDC00 ≤ value ∧ value ≤ 0xDFFF then
      some (.text (Char.ofNat (0x10000 + (h - 0xD800) * 0x400 + (value - 0xDC00)) :: done))
    else none
  | none =>
    if 0xD800 ≤ value ∧ value ≤ 0xDBFF then some (.second done value false)
    else if 0xDC00 ≤ value ∧ value ≤ 0xDFFF then none
    else some (.text (Char.ofNat value :: done))

/-- One character of the text. -/
def scanChar : ScanState → Char → Option ScanState
  | (.between, done), c => outside done c
  | (.atom cs, done), c =>
    if isAtomChar c then some (.atom (c :: cs), done)
    else (atom? cs.reverse).bind fun v => outside (.atom v :: done) c
  | (.text cs, done), c =>
    if c = '"' then some (.between, .text (String.ofList cs.reverse) :: done)
    else if c = '\\' then some (.escape cs, done)
    else if c.toNat < 0x20 then none
    else some (.text (c :: cs), done)
  | (.escape cs, done), c =>
    if c = 'u' then some (.code cs none 4 0, done)
    else (escape? c).map fun e => (.text (e :: cs), done)
  | (.code cs high missing value, done), c =>
    (digitIn? 16 c).bind fun d =>
      let value := value * 16 + d
      if missing = 1 then (finishCode cs high value).map (·, done)
      else some (.code cs high (missing - 1) value, done)
  | (.second cs high slash, done), c =>
    if slash then (if c = 'u' then some (.code cs (some high) 4 0, done) else none)
    else if c = '\\' then some (.second cs high true, done)
    else none

/-- The tokens of a text. -/
def tokens? (s : List Char) : Option (List Token) :=
  match s.foldlM scanChar ((.between, []) : ScanState) with
  | some (.between, done) => some done.reverse
  | some (.atom cs, done) => (atom? cs.reverse).map fun v => (.atom v :: done).reverse
  | _ => none

end TestBench.Json
