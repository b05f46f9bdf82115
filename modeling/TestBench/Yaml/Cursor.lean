/-
  A place in YAML text.

  1. Text is first brought into a normal form (`source?`): the three common line breaks and the
     next-line control all become a line feed, so that only three break characters are left, and
     characters that YAML does not allow are refused.
  2. A cursor is the text that is left together with the line and column it starts at.  Moving over
     characters inside a line advances the column; moving over a break starts a new line.
-/
namespace TestBench.Yaml

/-! ## Characters -/

/-- The line feed and the two Unicode separators. -/
def isBreak (c : Char) : Bool := c = '\n' || c.toNat = 0x2028 || c.toNat = 0x2029

def isBlank (c : Char) : Bool := c = ' ' || c = '\t'

def isGap (c : Char) : Bool := isBlank c || isBreak c

/-- A blank, a break, or the end of the text. -/
def endsWord : Option Char → Bool
  | none => true
  | some c => isGap c

/-- The characters of names: ASCII letters, digits, underscore and hyphen. -/
def isNameChar (c : Char) : Bool := c.isAlphanum || c = '_' || c = '-'

/-- The characters that may stand in YAML text. -/
def isAllowed (c : Char) : Bool :=
  let n := c.toNat
  n = 9 || n = 10 || n = 13 || (0x20 ≤ n && n ≤ 0x7E) || n = 0x85 || (0xA0 ≤ n && n ≤ 0xD7FF)
    || (0xE000 ≤ n && n ≤ 0xFFFD) || 0x10000 ≤ n

/-- Every line break other than the Unicode separators as a line feed. -/
def unifyBreaks : List Char → List Char
  | '\r' :: '\n' :: rest => '\n' :: unifyBreaks rest
  | '\r' :: rest => '\n' :: unifyBreaks rest
  | c :: rest => (if c.toNat = 0x85 then '\n' else c) :: unifyBreaks rest
  | [] => []

/-- The text in normal form, if all its characters are allowed. -/
def source? (s : String) : Option (List Char) :=
  if s.toList.all isAllowed then some (unifyBreaks s.toList) else none

/-! ## Cursors -/

structure Cursor where
  rest : List Char
  index : Nat
  line : Nat
  column : Nat

namespace Cursor

def start (rest : List Char) : Cursor := ⟨rest, 0, 0, 0⟩

def atEnd (c : Cursor) : Bool := c.rest.isEmpty

def peek (c : Cursor) : Option Char := c.rest.head?

/-- The character `n` places ahead. -/
def ahead (c : Cursor) (n : Nat) : Option Char := (c.rest.drop n).head?

def looksAt (c : Cursor) (x : Char) : Bool := c.peek == some x

def looksAtAny (c : Cursor) (xs : String) : Bool := c.peek.any xs.toList.contains

/-- Moves over `n` characters of the line. -/
def skip (c : Cursor) (n : Nat) : Cursor :=
  { c with rest := c.rest.drop n, index := c.index + n, column := c.column + n }

/-- Moves over a line break. -/
def skipBreak (c : Cursor) : Cursor :=
  { rest := c.rest.drop 1, index := c.index + 1, line := c.line + 1, column := 0 }

/-- The characters in front that satisfy a test, none of them a break, and the place behind. -/
def span (c : Cursor) (test : Char → Bool) : List Char × Cursor :=
  let taken := c.rest.takeWhile test
  (taken, c.skip taken.length)

def skipWhile (c : Cursor) (test : Char → Bool) : Cursor := (c.span test).2

/-- Moves to the end of the line. -/
def skipLine (c : Cursor) : Cursor := c.skipWhile fun x => !isBreak x

/-- Whether a line begins here with a mark of three characters that stands alone. -/
def atMarker (c : Cursor) (mark : String) : Bool :=
  c.column = 0 && mark.toList.isPrefixOf c.rest && endsWord (c.ahead 3)

/-- Whether a line begins here with the start or the end of a document. -/
def atDocumentMarker (c : Cursor) : Bool := c.atMarker "---" || c.atMarker "..."

end Cursor
end TestBench.Yaml
