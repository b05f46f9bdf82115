import TestBench.Text.Lowercase
import TestBench.Text.Search
import TestBench.Text.Utf8
import TestBench.Text.Whole
/-
  Hosts in addresses of resources.

  1. Brackets hold an address of version 6: eight groups of up to four hexadecimal digits, of which one
     run of zero groups may be left out; the last two groups may be written as an address of version 4.
     It is written with its longest run of at least two zero groups left out.
  2. A host of a web scheme is a name in lower case, with its percent signs resolved.  If its last label
     is a number the whole is an address of version 4 and has to be one.
  3. A host of any other scheme is kept as it is.
-/
namespace TestBench.Url

open TestBench.Text

/-! ## Percent signs -/

/-- A byte behind a percent sign. -/
def percentByte (b : UInt8) : List Char :=
  let digit (n : Nat) : Char := (Nat.digitChar n).toUpper
  ['%', digit (b.toNat / 16), digit (b.toNat % 16)]

/-- A text in which the bytes of some characters stand behind percent signs. -/
def encodeIf (test : Char → Bool) (s : List Char) : List Char :=
  s.flatMap fun c => if test c then (Utf8.encodeChar c).flatMap percentByte else [c]

/-- The bytes of a text, with those behind percent signs resolved. -/
def percentDecode : List Char → Utf8.Bytes
  | [] => []
  | '%' :: a :: b :: rest =>
    match digits? 16 [a], digits? 16 [b] with
    | some x, some y => Utf8.byte (16 * x + y) :: percentDecode rest
    | _, _ => Utf8.byte '%'.toNat :: percentDecode (a :: b :: rest)
  | c :: rest => Utf8.encodeChar c ++ percentDecode rest

/-- Characters outside of visible ASCII. -/
def isControl (c : Char) : Bool := c.toNat < 0x20 || 0x7E < c.toNat

/-- Characters that no host may hold. -/
def isForbidden (c : Char) : Bool :=
  c.toNat = 0 || [' ', '\t', '\n', '\r', '#', '/', ':', '<', '>', '?', '@', '[', '\\', ']', '^', '|'].contains c

/-- Characters that no name of a web host may hold. -/
def isForbiddenInName (c : Char) : Bool :=
  isForbidden c || c.toNat < 0x20 || c = '%' || c.toNat = 0x7F

/-! ## Version 4 -/

/-- A part of an address: hexadecimal, octal or decimal by its beginning. -/
def part4? (s : List Char) : Option Nat :=
  match s with
  | [] => none
  | '0' :: 'x' :: rest => if rest.isEmpty then some 0 else digits? 16 rest
  | '0' :: 'X' :: rest => if rest.isEmpty then some 0 else digits? 16 rest
  | ['0'] => some 0
  | '0' :: rest => digits? 8 rest
  | _ => digits? 10 s

/-- The labels of a name; one empty label at the end does not count. -/
def labels (name : List Char) : List (List Char) :=
  let all := splitChar '.' name
  if 1 < all.length && all.getLast? == some [] then all.dropLast else all

/-- Whether the last label is a number. -/
def endsInNumber (name : List Char) : Bool :=
  match (labels name).getLast? with
  | some label => (!label.isEmpty && label.all Char.isDigit) || (label.take 2 |> fun p =>
      (p == ['0', 'x'] || p == ['0', 'X']) && (part4? label).isSome)
  | none => false

/-- The value of parts, of which the last one fills all bytes that are left. -/
def value4? : Nat → Nat → List Nat → Option Nat
  | _, _, [] => none
  | left, total, [last] => if last < Nat.pow 256 left then some (total * Nat.pow 256 left + last) else none
  | left, total, n :: rest => if n < 256 then value4? (left - 1) (total * 256 + n) rest else none

/-- An address of version 4 in dotted form. -/
def address4? (name : List Char) : Option (List Char) := do
  let parts := labels name
  if 4 < parts.length then none
  else
    let n ← value4? 4 0 (← parts.mapM part4?)
    let bytes := [n / (256 * 256 * 256), n / (256 * 256) % 256, n / 256 % 256, n % 256]
    return joinChar '.' (bytes.map fun b => (toString b).toList)

/-! ## Version 6 -/

def group6? (s : List Char) : Option (List Nat) :=
  if 4 < s.length then none else (digits? 16 s).map ([·])

/-- A decimal byte without leading zeros. -/
def byte4? (s : List Char) : Option Nat :=
  if 1 < s.length && s.head? == some '0' then none
  else if s.all Char.isDigit then (digits? 10 s).filter (· < 256) else none

/-- An address of version 4 as two groups. -/
def tail6? (s : List Char) : Option (List Nat) := do
  match ← (splitChar '.' s).mapM byte4? with
  | [a, b, c, d] => some [256 * a + b, 256 * c + d]
  | _ => none

/-- Groups between colons; the last one may be an address of version 4. -/
def groups6? : List (List Char) → Option (List Nat)
  | [] => some []
  | [last] => if last.contains '.' then tail6? last else group6? last
  | g :: rest => do return (← group6? g) ++ (← groups6? rest)

/-- The groups of a text without a gap. -/
def side6? (s : List Char) : Option (List Nat) :=
  if s.isEmpty then some [] else groups6? (splitChar ':' s)

/-- The eight groups of an address of version 6. -/
def address6? (s : List Char) : Option (List Nat) :=
  match splitOnce [':', ':'] s with
  | none => (side6? s).filter (·.length = 8)
  | some (before, after) =>
    match (if before.contains '.' then none else side6? before), side6? after with
    | some left, some right =>
      if left.length + right.length < 8 then
        some (left ++ List.replicate (8 - left.length - right.length) 0 ++ right)
      else none
    | _, _ => none

/-- The length of the run of zeros at the beginning. -/
def zeroRun (groups : List Nat) : Nat := (groups.takeWhile (· = 0)).length

/-- Where the longest run of zeros starts, and its length; the first of several counts. -/
def longestRun : Nat → List Nat → Nat × Nat
  | _, [] => (0, 0)
  | index, g :: rest =>
    let here := zeroRun (g :: rest)
    let (start, length) := longestRun (index + 1) rest
    if length ≤ here then (index, here) else (start, length)

def groupText (n : Nat) : List Char := Nat.toDigits 16 n

/-- The text of an address of version 6. -/
def text6 (groups : List Nat) : List Char :=
  let (start, length) := longestRun 0 groups
  let joined (gs : List Nat) : List Char := joinChar ':' (gs.map groupText)
  if length < 2 then joined groups
  else joined (groups.take start) ++ [':', ':'] ++ joined (groups.drop (start + length))

/-- An address between brackets, brackets included. -/
def bracketed? (host : List Char) : Option (List Char) :=
  match host with
  | '[' :: rest =>
    if rest.getLast? == some ']' then
      (address6? rest.dropLast).map fun groups => '[' :: text6 groups ++ [']']
    else none
  | _ => none

/-! ## Hosts -/

/-- The host of a web scheme. -/
def webHost? (host : List Char) : Option (List Char) :=
  if host.head? == some '[' then bracketed? host
  else
    let name := (lowercase (String.ofList (Utf8.decodeLossy (percentDecode host)))).toList
    if name.isEmpty || name.any isForbiddenInName then none
    else if endsInNumber name then address4? name
    else some name

/-- The host of any other scheme. -/
def otherHost? (host : List Char) : Option (List Char) :=
  if host.head? == some '[' then bracketed? host
  else if host.any isForbidden then none
  else some (encodeIf isControl host)

end TestBench.Url
