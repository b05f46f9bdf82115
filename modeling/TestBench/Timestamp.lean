import TestBench.Text.Whole
import TestBench.Text.Lowercase
/-
  Points in time, to the nanosecond.

  1. A timestamp counts seconds since the beginning of 1970 in universal time.  A leap second has the
     number of the second before it and a fraction of one second or more.
  2. Dates are counted in eras of 400 years, which all have the same number of days; a year is taken
     to begin in March, so that the leap day is its last (`daysBefore`, `civil`).
  3. Reading accepts a date, a time with an optional fraction, and an offset; writing is in universal
     time with as many groups of three digits of the fraction as are needed.
-/
namespace TestBench

open TestBench.Text

structure Timestamp where
  seconds : Int
  nanos : Nat
  deriving Repr, DecidableEq, Inhabited

namespace Timestamp

/-! ## Days -/

/-- The days from the beginning of 1970 to a date. -/
def daysBefore (year : Int) (month day : Nat) : Int :=
  let y := if month ≤ 2 then year - 1 else year
  let era := Int.fdiv y 400
  let yearOfEra := (y - era * 400).toNat
  let dayOfYear := (153 * (if 2 < month then month - 3 else month + 9) + 2) / 5 + day - 1
  let dayOfEra := yearOfEra * 365 + yearOfEra / 4 - yearOfEra / 100 + dayOfYear
  era * 146097 + dayOfEra - 719468

/-- The year, month and day that begin a number of days after the beginning of 1970. -/
def civil (days : Int) : Int × Nat × Nat :=
  let z := days + 719468
  let era := Int.fdiv z 146097
  let dayOfEra := (z - era * 146097).toNat
  let yearOfEra := (dayOfEra - dayOfEra / 1460 + dayOfEra / 36524 - dayOfEra / 146096) / 365
  let dayOfYear := dayOfEra - (365 * yearOfEra + yearOfEra / 4 - yearOfEra / 100)
  let m := (5 * dayOfYear + 2) / 153
  let day := dayOfYear - (153 * m + 2) / 5 + 1
  let month := if m < 10 then m + 3 else m - 9
  (yearOfEra + era * 400 + (if month ≤ 2 then 1 else 0), month, day)

/-- The years that there are. -/
def isYear (year : Int) : Bool := -262143 ≤ year && year ≤ 262142

/-- The year of a timestamp in universal time. -/
def year (t : Timestamp) : Int := (civil (Int.fdiv t.seconds 86400)).1

def isLeapYear (year : Int) : Bool :=
  year % 4 = 0 && (year % 100 ≠ 0 || year % 400 = 0)

def monthLength (year : Int) (month : Nat) : Nat :=
  match month with
  | 2 => if isLeapYear year then 29 else 28
  | 4 | 6 | 9 | 11 => 30
  | _ => 31

/-! ## Writing -/

/-- A number in decimal, filled with zeros to a width. -/
def padded (width n : Nat) : String :=
  let s := toString n
  String.ofList (List.replicate (width - s.length) '0') ++ s

/-- The fraction of a second, in groups of three digits. -/
def fractionText (nanos : Nat) : String :=
  if nanos = 0 then ""
  else if nanos % 1000000 = 0 then "." ++ padded 3 (nanos / 1000000)
  else if nanos % 1000 = 0 then "." ++ padded 6 (nanos / 1000)
  else "." ++ padded 9 nanos

def yearText (year : Int) : String :=
  if 0 ≤ year ∧ year ≤ 9999 then padded 4 year.toNat
  else (if year < 0 then "-" else "+") ++ padded 4 year.natAbs

/-- The timestamp in universal time. -/
def text (t : Timestamp) : String :=
  let days := Int.fdiv t.seconds 86400
  let ofDay := (t.seconds - days * 86400).toNat
  let (year, month, day) := civil days
  let second := ofDay % 60 + t.nanos / 1000000000
  s!"{yearText year}-{padded 2 month}-{padded 2 day}T{padded 2 (ofDay / 3600)}:"
    ++ s!"{padded 2 (ofDay / 60 % 60)}:{padded 2 second}{fractionText (t.nanos % 1000000000)}Z"

/-! ## Reading -/

def isSpace (c : Char) : Bool := c = ' ' || ('\t' ≤ c && c ≤ '\r')

def skipSpaces (s : List Char) : List Char := s.dropWhile isSpace

/-- A number of one to `width` digits, blanks in front allowed, and what follows. -/
def number? (width : Nat) (s : List Char) : Option (Nat × List Char) :=
  let s := skipSpaces s
  let digits := (s.take width).takeWhile Char.isDigit
  (digits? 10 digits).map fun n => (n, s.drop digits.length)

/-- What follows a mark, blanks in front allowed. -/
def afterMark? (mark : Char) (s : List Char) : Option (List Char) :=
  match skipSpaces s with
  | c :: rest => if c = mark then some rest else none
  | [] => none

/-- A year: up to four digits, or any number of them behind a sign. -/
def year? (s : List Char) : Option (Int × List Char) :=
  match skipSpaces s with
  | '-' :: rest => (number? rest.length rest).map fun (n, r) => (-(n : Int), r)
  | '+' :: rest => (number? rest.length rest).map fun (n, r) => ((n : Int), r)
  | s => (number? 4 s).map fun (n, r) => ((n : Int), r)

/-- The nanoseconds that a fraction writes; digits beyond the ninth do not count. -/
def fraction? (s : List Char) : Option (Nat × List Char) :=
  match s with
  | '.' :: rest =>
    let digits := rest.takeWhile Char.isDigit
    let kept := digits.take 9
    (digits? 10 kept).map fun n => (n * Nat.pow 10 (9 - kept.length), rest.drop digits.length)
  | _ => some (0, s)

def twoDigits? (s : List Char) : Option (Nat × List Char) :=
  if (s.take 2).length = 2 && (s.take 2).all Char.isDigit then
    (digits? 10 (s.take 2)).map (·, s.drop 2)
  else none

/-- The seconds by which an offset is ahead of universal time. -/
def offset? (s : List Char) : Option (Int × List Char) :=
  if (s.take 3).map Char.toLower = ['u', 't', 'c'] && (s.take 3).length = 3 then some (0, s.drop 3)
  else match s with
    | 'Z' :: rest => some (0, rest)
    | 'z' :: rest => some (0, rest)
    | c :: rest => do
      let sign : Int ← if c = '+' then some 1
        else if c = '-' ∨ c.toNat = 0x2212 then some (-1) else none
      let (hours, rest) ← twoDigits? rest
      let (minutes, rest) ← twoDigits? (rest.dropWhile fun c => c = ':' || isSpace c)
      if 59 < minutes ∨ 23 < hours then none
      else some (sign * (hours * 3600 + minutes * 60), rest)
    | [] => none

/-- The mark between date and time. -/
def separator? (s : List Char) : Option (List Char) :=
  match s with
  | [] => none
  | c :: rest =>
    if c = 'T' ∨ c = 't' then some rest else if isSpace c then some (skipSpaces s) else none

/-- Reads a timestamp. -/
def parse? (text : String) : Option Timestamp := do
  let (year, s) ← year? text.toList
  let (month, s) ← number? 2 (← afterMark? '-' s)
  let (day, s) ← number? 2 (← afterMark? '-' s)
  let (hour, s) ← number? 2 (← separator? s)
  let (minute, s) ← number? 2 (← afterMark? ':' s)
  let (second, s) ← number? 2 (← afterMark? ':' s)
  let (nanos, s) ← fraction? s
  let (offset, s) ← offset? (skipSpaces s)
  if !(skipSpaces s).isEmpty || month < 1 || 12 < month || day < 1 || monthLength year month < day
      || 23 < hour || 59 < minute || 60 < second || !isYear year then none
  else
    let leap := second = 60
    let seconds := daysBefore year month day * 86400 + hour * 3600 + minute * 60
      + (if leap then 59 else second) - offset
    let t : Timestamp := ⟨seconds, nanos + if leap then 1000000000 else 0⟩
    -- the offset may lead out of the years
    if isYear t.year then some t else none

end Timestamp
end TestBench
