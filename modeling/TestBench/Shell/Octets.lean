import TestBench.Text.Utf8
import TestBench.Text.Whole
/-
  Text as the shell sees it: bytes, each held as the character of its number.

  Everything that a command reads or writes is such a text, whatever encoding it has.  The names of
  files and the text of a script are made of characters, so they are encoded on the way in and decoded
  on the way out.
-/
namespace TestBench.Shell

open TestBench.Text

/-- Bytes held as characters below 256. -/
abbrev Octets := List Char

namespace Octets

def ofBytes (bytes : Utf8.Bytes) : Octets := bytes.map fun b => Char.ofNat b.toNat

def toBytes (s : Octets) : Utf8.Bytes := s.map fun c => Utf8.byte c.toNat

def ofString (s : String) : Octets := ofBytes (Utf8.encode s.toList)

/-- The characters that the bytes encode. -/
def toString (s : Octets) : String := String.ofList (Utf8.decodeLossy (toBytes s))

/-- A number in decimal. -/
def ofInt (n : Int) : Octets := (ToString.toString n).toList

def ofNat (n : Nat) : Octets := ofInt n

end Octets

/-- Blanks between words. -/
def isSpace (c : Char) : Bool := c = ' ' || c = '\t' || c = '\n' || c = '\r' || c.toNat = 11 || c.toNat = 12

def isNameStart (c : Char) : Bool := c.isAlpha || c = '_'

def isNameChar (c : Char) : Bool := c.isAlphanum || c = '_'

/-- Whether a text can name a variable. -/
def isName (s : List Char) : Bool := s.head?.any isNameStart && s.all isNameChar

/-- The lines of a text; what stands behind the last line break is a line if it is not empty. -/
def linesOf (s : Octets) : List Octets :=
  let pieces := splitBreaks s
  if pieces.getLast? == some [] then pieces.dropLast else pieces
where
  splitBreaks : Octets → List Octets
    | [] => [[]]
    | c :: rest =>
      if c = '\n' then [] :: splitBreaks rest
      else match splitBreaks rest with
        | [] => [[c]]
        | line :: lines => (c :: line) :: lines

end TestBench.Shell
