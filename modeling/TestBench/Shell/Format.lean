import TestBench.Decimal.Literal
import TestBench.Shell.Arithmetic
/-
  What `echo` and `printf` write.

  1. A backslash and what follows it stand for one character (`escape`); in arguments `\c` ends the
     output.
  2. A format is text with directives.  It is used again as long as it takes arguments and some are
     left; where they run out, an empty text or 0 is taken.
  3. An argument that is no number is complained about and counts as far as it is one.
-/
namespace TestBench.Shell

/-! ## Escapes -/

/-- The character that stands behind a backslash, and what is behind it. -/
def escape (s : Octets) : Char × Octets :=
  let isOctal (c : Char) : Bool := '0' ≤ c && c ≤ '7'
  match s with
  | 'a' :: rest => (Char.ofNat 7, rest)
  | 'b' :: rest => (Char.ofNat 8, rest)
  | 'f' :: rest => (Char.ofNat 12, rest)
  | 'n' :: rest => ('\n', rest)
  | 'r' :: rest => ('\r', rest)
  | 't' :: rest => ('\t', rest)
  | 'v' :: rest => (Char.ofNat 11, rest)
  | '\\' :: rest => ('\\', rest)
  | _ =>
    let digits := (s.take 3).takeWhile isOctal
    if digits.isEmpty then ('\\', s)
    else (Char.ofNat (Arithmetic.digitsValue 8 digits % 256), s.drop digits.length)

/-- A text with its escapes resolved, and whether the output goes on behind it. -/
def resolveEscapes : Nat → Octets → Octets × Bool
  | 0, _ => ([], true)
  | _, [] => ([], true)
  | fuel + 1, '\\' :: rest =>
    match rest with
    | 'c' :: _ => ([], false)
    | '0' :: d :: behind =>
      let (c, behind) := escape (if '0' ≤ d && d ≤ '7' then d :: behind else rest)
      let (s, goesOn) := resolveEscapes fuel behind
      (c :: s, goesOn)
    | _ =>
      let (c, behind) := escape rest
      let (s, goesOn) := resolveEscapes fuel behind
      (c :: s, goesOn)
  | fuel + 1, c :: rest =>
    let (s, goesOn) := resolveEscapes fuel rest
    (c :: s, goesOn)

/-- What `echo` writes for its arguments. -/
def echoText (arguments : List Octets) : Octets :=
  match arguments with
  | ['-', 'n'] :: rest => words rest false
  | _ => words arguments true
where
  words : List Octets → Bool → Octets
    | [], endsLine => if endsLine then ['\n'] else []
    | a :: rest, endsLine =>
      match resolveEscapes (a.length + 1) a with
      | (s, false) => s
      | (s, true) => s ++ (if rest.isEmpty then [] else [' ']) ++ words rest endsLine

/-! ## Directives -/

/-- A number in a directive. -/
inductive Amount where
  | fixed (n : Nat)
  | argument
  deriving Repr, DecidableEq, Inhabited

inductive FormatPiece where
  | text (s : Octets)
  | directive (flags : List Char) (width precision : Option Amount) (conversion : Char)
  | unfinished
  | invalid (text : Octets)
  deriving Repr, Inhabited

/-- The amount that a text begins with, and what is behind it. -/
def amount? (s : Octets) : Option Amount × Octets :=
  match s with
  | '*' :: rest => (some .argument, rest)
  | _ =>
    let digits := s.takeWhile Char.isDigit
    (if digits.isEmpty then none else some (.fixed (Arithmetic.digitsValue 10 digits)),
      s.drop digits.length)

/-- The directive behind a percent sign, and what is behind it. -/
def directive (s : Octets) : FormatPiece × Octets :=
  let flags := s.takeWhile fun c => "#-+ 0".toList.contains c
  let (width, rest) := amount? (s.drop flags.length)
  let (precision, rest) := match rest with
    | '.' :: rest =>
      let (n, rest) := amount? rest
      (some (n.getD (.fixed 0)), rest)
    | _ => (none, rest)
  match rest with
  | [] => (.unfinished, [])
  | c :: rest =>
    if "bcsdiouxXfF".toList.contains c then (.directive flags width precision c, rest)
    else (.invalid ('%' :: s.take (s.length - rest.length)), rest)

/-- The pieces of a format. -/
def formatPieces : Nat → Octets → List FormatPiece
  | 0, _ => []
  | _, [] => []
  | fuel + 1, '\\' :: rest =>
    let (c, rest) := escape rest
    .text [c] :: formatPieces fuel rest
  | fuel + 1, '%' :: '%' :: rest => .text ['%'] :: formatPieces fuel rest
  | fuel + 1, '%' :: rest =>
    let (d, rest) := directive rest
    d :: formatPieces fuel rest
  | fuel + 1, c :: rest => .text [c] :: formatPieces fuel rest

/-! ## Printing -/

/-- What was printed so far, with the arguments that are left. -/
structure Printing where
  output : Octets
  arguments : List Octets
  complaints : List String
  status : Nat
  /-- Whether the output has come to its end. -/
  isOver : Bool
  deriving Inhabited

namespace Printing

def complain (p : Printing) (message : String) : Printing :=
  { p with complaints := p.complaints ++ [message], status := 1 }

def fail (p : Printing) (message : String) : Printing :=
  { p with complaints := p.complaints ++ [message], status := 2, isOver := true }

def write (p : Printing) (s : Octets) : Printing := { p with output := p.output ++ s }

/-- Takes an argument as text. -/
def takeText (p : Printing) : Octets × Printing :=
  match p.arguments with
  | [] => ([], p)
  | a :: rest => (a, { p with arguments := rest })

/-- Takes an argument as a number. -/
def takeNumber (p : Printing) : Int × Printing :=
  match p.arguments with
  | [] => (0, p)
  | a :: rest =>
    let p := { p with arguments := rest }
    match a with
    | '"' :: c => ((c.head?.getD '\x00').toNat, p)
    | '\'' :: c => ((c.head?.getD '\x00').toNat, p)
    | _ =>
      let s := a.dropWhile isSpace
      let (isNegative, digits) := match s with
        | '-' :: rest => (true, rest)
        | '+' :: rest => (false, rest)
        | _ => (false, s)
      match Arithmetic.number? digits with
      | none =>
        (0, if a.isEmpty then p else p.complain s!"{Octets.toString a}: expected numeric value")
      | some (n, behind) =>
        let n : Int := if isNegative then -(n : Int) else n
        let p := if behind.isEmpty then p
          else p.complain s!"{Octets.toString a}: not completely converted"
        (n, p)

/-- Takes an argument as a number with a fraction. -/
def takeDecimal (p : Printing) : Decimal.Binary64 × Printing :=
  match p.arguments with
  | [] => (.zero false, p)
  | a :: rest =>
    let p := { p with arguments := rest }
    let s := a.dropWhile isSpace
    -- the longest beginning that is a number
    let lengths := (List.range (s.length + 1)).reverse
    match lengths.findSome? fun n => (Decimal.literal? (s.take n)).map (·, n) with
    | some (x, n) =>
      (x, if n = s.length then p else p.complain s!"{Octets.toString a}: not completely converted")
    | none =>
      (.zero false,
        if a.isEmpty then p else p.complain s!"{Octets.toString a}: expected numeric value")

def takeAmount (p : Printing) : Option Amount → Option Int × Printing
  | none => (none, p)
  | some (.fixed n) => (some n, p)
  | some .argument =>
    let (n, p) := p.takeNumber
    (some n, p)

end Printing

/-- Fills a text with blanks up to a width. -/
def padBlanks (onTheRight : Bool) (width : Nat) (s : Octets) : Octets :=
  let blanks := List.replicate (width - s.length) ' '
  if onTheRight then s ++ blanks else blanks ++ s

/-- A number with so many digits behind the point. -/
def fixedText (flags : List Char) (width precision : Nat) (x : Decimal.Binary64) : Octets :=
  let sign := if x.isNegative then ['-'] else if flags.contains '+' then ['+']
    else if flags.contains ' ' then [' '] else []
  match x.ratio? with
  | none => padBlanks (flags.contains '-') width (sign ++ (if x = .nan then "nan" else "inf").toList)
  | some (_, n, d) =>
    let digits := Nat.toDigits 10 (Decimal.Binary64.roundHalfEven (n * Nat.pow 10 precision) d)
    let digits := List.replicate (precision + 1 - digits.length) '0' ++ digits
    let whole := digits.take (digits.length - precision)
    let fraction := digits.drop whole.length
    let number := if precision = 0 then whole else whole ++ '.' :: fraction
    if flags.contains '0' && !flags.contains '-' then
      sign ++ List.replicate (width - sign.length - number.length) '0' ++ number
    else padBlanks (flags.contains '-') width (sign ++ number)

/-- A number as a directive writes it. -/
def numberText (flags : List Char) (width : Nat) (precision : Option Nat) (conversion : Char) (n : Int) :
    Octets :=
  let isSigned := conversion = 'd' || conversion = 'i'
  let magnitude := if isSigned then n.natAbs else (n % (Nat.pow 2 64 : Nat)).toNat
  let base := if conversion = 'o' then 8 else if conversion = 'x' || conversion = 'X' then 16 else 10
  let digits := if magnitude = 0 && precision = some 0 then [] else Nat.toDigits base magnitude
  let digits := if conversion = 'X' then digits.map Char.toUpper else digits
  let digits := List.replicate (precision.getD 1 - digits.length) '0' ++ digits
  let mark :=
    if isSigned then
      if n < 0 then ['-'] else if flags.contains '+' then ['+']
      else if flags.contains ' ' then [' '] else []
    else if !flags.contains '#' then []
    else if conversion = 'o' then if digits.head? = some '0' then [] else ['0']
    else if (conversion = 'x' || conversion = 'X') && magnitude ≠ 0 then ['0', conversion]
    else []
  if flags.contains '0' && !flags.contains '-' && precision.isNone then
    mark ++ List.replicate (width - mark.length - digits.length) '0' ++ digits
  else padBlanks (flags.contains '-') width (mark ++ digits)

/-- Prints a piece of a format. -/
def Printing.piece (p : Printing) (piece : FormatPiece) : Printing :=
  if p.isOver then p
  else match piece with
    | .text s => p.write s
    | .unfinished => p.fail "missing format character"
    | .invalid text => p.fail s!"{Octets.toString text}: invalid directive"
    | .directive flags width precision conversion =>
      let (width, p) := p.takeAmount width
      let (precision, p) := p.takeAmount precision
      let flags := if width.any (· < 0) then '-' :: flags else flags
      let width := (width.getD 0).natAbs
      let precision := (precision.filter (0 ≤ ·)).map Int.toNat
      let text (s : Octets) : Octets :=
        padBlanks (flags.contains '-') width (s.take (precision.getD s.length))
      match conversion with
      | 's' =>
        let (s, p) := p.takeText
        p.write (text s)
      | 'b' =>
        let (s, p) := p.takeText
        let (s, goesOn) := resolveEscapes (s.length + 1) s
        { p.write (text s) with isOver := !goesOn }
      | 'c' =>
        let (s, p) := p.takeText
        p.write (padBlanks (flags.contains '-') width [s.head?.getD '\x00'])
      | 'f' | 'F' =>
        let (x, p) := p.takeDecimal
        p.write (fixedText flags width (precision.getD 6) x)
      | _ =>
        let (n, p) := p.takeNumber
        p.write (numberText flags width precision conversion n)

/-- Prints by the pieces of a format until the arguments are used up. -/
def printPasses (pieces : List FormatPiece) : Nat → Printing → Printing
  | 0, p => p
  | fuel + 1, p =>
    let after := pieces.foldl Printing.piece p
    if after.isOver || after.arguments.isEmpty || after.arguments.length = p.arguments.length then after
    else printPasses pieces fuel after

/-- What `printf` prints for a format and its arguments. -/
def printFormat (format : Octets) (arguments : List Octets) : Printing :=
  printPasses (formatPieces (format.length + 1) format) (arguments.length + 1)
    { output := [], arguments, complaints := [], status := 0, isOver := false }

end TestBench.Shell
