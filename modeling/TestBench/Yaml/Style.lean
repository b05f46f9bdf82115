import TestBench.Yaml.Schema
import TestBench.Text.Quoted
/-
  How a text is written as a YAML scalar.

  1. Text with a line feed is written as a literal block, text that would read back as another kind of
     value between single quotes, and all else plain (`wishedStyle`).
  2. A survey of the characters says which styles can hold the text at all (`Survey`); where the
     wished one cannot, a stronger one is taken: single quotes, then double quotes with escapes.
  3. A text inside a key has no block form and may not break the line.
-/
namespace TestBench.Yaml

open TestBench.Text

inductive Style where
  | plain
  | single
  | double
  | literal
  deriving Repr, DecidableEq, Inhabited

/-- The style that suits what a text would read back as. -/
def wishedStyle (s : String) : Style :=
  if s.toList.contains '\n' then .literal
  else if isPadded s.toList then .single
  else match plain? s with
    | some (.text _) => .plain
    | _ => .single

/-! ## The survey -/

/-- Characters that every style but double quotes writes as they are: line feeds, and visible
    characters of at most sixteen bits. -/
def isWritable (c : Char) : Bool :=
  let n := c.toNat
  n = 10 || (0x20 ≤ n && n ≤ 0x7E) || (0xA0 ≤ n && n ≤ 0xD7FF)
    || (0xE000 ≤ n && n ≤ 0xFFFD && n ≠ 0xFEFF)

/-- Whether a character ends a line, in text of which the breaks were not unified. -/
def breaksLine (c : Char) : Bool :=
  isBreak c || c = '\r' || c.toNat = 0x85

/-- A blank, a line break or nothing. -/
def isWordEnd : Option Char → Bool
  | none => true
  | some c => isBlank c || breaksLine c || c.toNat = 0

/-- Whether a character at the beginning of a text is a mark of the grammar. -/
def isLeadingMark (c : Char) (next : Option Char) : Bool :=
  ("#,[]\x7b\x7d&*!|>'\"%@\x60".toList.contains c)
    || (("?:-".toList.contains c) && isWordEnd next)

/-- Whether a character inside a text is a mark of the grammar. -/
def isInnerMark (before c : Char) (next : Option Char) : Bool :=
  (c = ':' && isWordEnd next) || (c = '#' && isWordEnd (some before))

/-- Whether some character behind the first is a mark of the grammar. -/
def hasInnerMark : List Char → Bool
  | a :: b :: rest => isInnerMark a b rest.head? || hasInnerMark (b :: rest)
  | _ => false

/-- Whether two neighbours satisfy two tests. -/
def hasPair (p q : Char → Bool) : List Char → Bool
  | a :: b :: rest => (p a && q b) || hasPair p q (b :: rest)
  | _ => false

/-- Which styles can hold a text. -/
structure Survey where
  multiline : Bool
  plain : Bool
  single : Bool
  literal : Bool

/-- Surveys the characters of a text. -/
def survey (s : List Char) : Survey :=
  let isSpace (c : Char) : Bool := c = ' '
  let marked := "---".toList.isPrefixOf s || "...".toList.isPrefixOf s
    || (s.head?.any fun c => isLeadingMark c (s.drop 1).head?) || hasInnerMark s
  let ends (p : Char → Bool) : Bool := s.head?.any p || s.getLast?.any p
  let multiline := s.any breaksLine
  let special := hasPair isSpace breaksLine s || !s.all isWritable
  let breakSpace := hasPair breaksLine isSpace s
  { multiline
    plain := !(marked || ends isSpace || ends breaksLine || multiline || special || breakSpace)
    single := !(special || breakSpace)
    literal := !s.isEmpty && !special && !s.getLast?.any isSpace }

/-- The style of a text; `inKey` says that it stands in a key on one line. -/
def styleOf (inKey : Bool) (s : String) : Style :=
  let v := survey s.toList
  let wished := if inKey && v.multiline then .double else wishedStyle s
  let style : Style := match wished with
    | .plain => if v.plain then .plain else .single
    | style => style
  match style with
  | .single => if v.single then .single else .double
  | .literal => if v.literal && !inKey then .literal else .double
  | style => style

/-! ## Writing -/

def spaces (n : Nat) : String := String.ofList (List.replicate n ' ')

def upperHex (width n : Nat) : String :=
  let digits := (Nat.toDigits 16 n).map Char.toUpper
  String.ofList (List.replicate (width - digits.length) '0' ++ digits)

/-- A character between double quotes. -/
def doubleChar (c : Char) : String :=
  let n := c.toNat
  if isWritable c && !isBreak c && c ≠ '"' && c ≠ '\\' then String.singleton c
  else "\\" ++
    match n with
    | 0x00 => "0" | 0x07 => "a" | 0x08 => "b" | 0x09 => "t" | 0x0A => "n" | 0x0B => "v"
    | 0x0C => "f" | 0x0D => "r" | 0x1B => "e" | 0x22 => "\"" | 0x5C => "\\" | 0x85 => "N"
    | 0xA0 => "_" | 0x2028 => "L" | 0x2029 => "P"
    | _ =>
      if n ≤ 0xFF then "x" ++ upperHex 2 n
      else if n ≤ 0xFFFF then "u" ++ upperHex 4 n
      else "U" ++ upperHex 8 n

/-- Characters between single quotes; behind a break the line is indented, and a first line feed is
    doubled. -/
def singleChars (indent : Nat) : Bool → List Char → String
  | broken, [] => if broken then spaces indent else ""
  | broken, c :: rest =>
    if isBreak c then
      (if !broken && c = '\n' then "\n" else "") ++ String.singleton c ++ singleChars indent true rest
    else
      (if broken then spaces indent else "") ++ (if c = '\'' then "''" else String.singleton c)
        ++ singleChars indent false rest

/-- The lines of a literal block, each that is not empty indented. -/
def literalChars (indent : Nat) : Bool → List Char → String
  | _, [] => ""
  | broken, c :: rest =>
    if isBreak c then String.singleton c ++ literalChars indent true rest
    else (if broken then spaces indent else "") ++ String.singleton c ++ literalChars indent false rest

/-- The marks of a literal block: the indentation where the text does not show it, and what to keep of
    the breaks at the end. -/
def literalHeader (s : List Char) : String :=
  let hint := if s.head?.any fun c => c = ' ' || isBreak c then "2" else ""
  let chomp := match s.reverse with
    | [] => "-"
    | [c] => if isBreak c then "+" else "-"
    | c :: d :: _ => if !isBreak c then "-" else if isBreak d then "+" else ""
  "|" ++ hint ++ chomp

/-- A text in a style; block text and broken lines are indented. -/
def styledText (indent : Nat) (style : Style) (s : String) : String :=
  match style with
  | .plain => s
  | .single => "'" ++ singleChars indent false s.toList ++ "'"
  | .double => "\"" ++ String.join (s.toList.map doubleChar) ++ "\""
  | .literal => literalHeader s.toList ++ "\n" ++ literalChars indent true s.toList

end TestBench.Yaml
