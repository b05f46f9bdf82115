import TestBench.Text.Utf8
/-
  Glob patterns and what they match.

  1. A pattern is a list of parts.  `?` stands for one byte and `*` for any number of them, none of
     them a slash; `**` stands for whole directories; a class stands for one byte, and braces for one of
     several patterns.
  2. Matching goes over the UTF-8 bytes of a path.  A part matches the beginning of a text in perhaps
     several ways, each of which leaves the rest of the text (`GlobPart.rests`); a pattern accepts a
     text if its parts, one after another, can leave nothing.
  3. A class of characters holds the bytes of the characters, and between the two ends of a range all
     bytes from the last one of its first character to the first one of its last character.
-/
namespace TestBench

open TestBench.Text
open TestBench.Text.Utf8 (Bytes)

/-- A part of a pattern. -/
inductive GlobPart where
  | char (c : Char)
  /-- One byte other than a slash. -/
  | any
  /-- Any number of bytes other than slashes. -/
  | many
  /-- Nothing, or directories with the slash behind them. -/
  | directoriesFirst
  /-- A slash, or a slash with directories and another slash behind it. -/
  | directories
  /-- A slash and everything behind it. -/
  | everythingBelow
  | oneOf (negated : Bool) (ranges : List (Char × Char))
  | alternatives (branches : List (List GlobPart))
  deriving Repr, Inhabited

namespace Glob

def slash : UInt8 := Utf8.byte '/'.toNat

/-! ## Classes -/

/-- The ranges of bytes that a range of characters stands for. -/
def byteRanges (range : Char × Char) : List (UInt8 × UInt8) :=
  let single := fun (b : UInt8) => (b, b)
  let first := Utf8.encodeChar range.1
  let last := Utf8.encodeChar range.2
  if range.1 = range.2 then first.map single
  else first.dropLast.map single ++ [(first.getLastD 0, last.headD 0)] ++ last.tail.map single

def inClass (negated : Bool) (ranges : List (Char × Char)) (b : UInt8) : Bool :=
  (ranges.any fun range => (byteRanges range).any fun (first, last) => first ≤ b && b ≤ last)
    != negated

/-! ## Matching -/

/-- What is left behind a given beginning. -/
def afterPrefix (beginning text : Bytes) : List Bytes :=
  if beginning.isPrefixOf text then [text.drop beginning.length] else []

/-- What is left behind any number of bytes that pass a test. -/
def afterMany (pass : UInt8 → Bool) : Bytes → List Bytes
  | [] => [[]]
  | b :: rest => (b :: rest) :: (if pass b then afterMany pass rest else [])

/-- What is left behind each slash. -/
def behindSlashes : Bytes → List Bytes
  | [] => []
  | b :: rest => (if b = slash then [rest] else []) ++ behindSlashes rest

/-- A text and everything that is left when its beginning is cut off. -/
def suffixes : Bytes → List Bytes
  | [] => [[]]
  | b :: rest => (b :: rest) :: suffixes rest

/-- What is left behind one byte that passes a test. -/
def afterOne (pass : UInt8 → Bool) : Bytes → List Bytes
  | [] => []
  | b :: rest => if pass b then [rest] else []

/-- The first text of several equal ones. -/
def distinct (rests : List Bytes) : List Bytes := rests.eraseDups

end Glob

namespace GlobPart

open Glob

mutual

/-- Whether the part can only be empty: braces without anything between them. -/
def isVoid : GlobPart → Bool
  | .alternatives branches => allVoid branches
  | _ => false

def areVoid : List GlobPart → Bool
  | [] => true
  | part :: rest => part.isVoid && areVoid rest

def allVoid : List (List GlobPart) → Bool
  | [] => true
  | branch :: rest => areVoid branch && allVoid rest

end

mutual

/-- What a part can leave of a text. -/
def rests : GlobPart → Bytes → List Bytes
  | .char c, text => afterPrefix (Utf8.encodeChar c) text
  | .any, text => afterOne (· ≠ slash) text
  | .many, text => afterMany (· ≠ slash) text
  | .directoriesFirst, text => text :: behindSlashes text
  | .directories, text =>
    (afterOne (· = slash) text).flatMap fun rest => rest :: behindSlashes rest
  | .everythingBelow, text => (afterOne (· = slash) text).flatMap suffixes
  | .oneOf negated ranges, text => afterOne (inClass negated ranges) text
  | .alternatives branches, text =>
    if allVoid branches then [text] else branchRests branches text

/-- What a sequence of parts can leave of a text. -/
def sequenceRests : List GlobPart → Bytes → List Bytes
  | [], text => [text]
  | part :: parts, text => distinct ((part.rests text).flatMap fun rest => sequenceRests parts rest)

/-- What the branches that are not void can leave of a text. -/
def branchRests : List (List GlobPart) → Bytes → List Bytes
  | [], _ => []
  | branch :: branches, text =>
    (if areVoid branch then [] else sequenceRests branch text) ++ branchRests branches text

end

end GlobPart

/-- A pattern. -/
structure Glob where
  parts : List GlobPart
  deriving Repr, Inhabited

namespace Glob

/-- Whether a pattern is nothing but `**`, which accepts everything. -/
def isEverything (glob : Glob) : Bool :=
  match glob.parts with
  | [.directoriesFirst] => true
  | _ => false

/-- Whether a pattern accepts a path. -/
def accepts (glob : Glob) (path : String) : Bool :=
  glob.isEverything
    || (GlobPart.sequenceRests glob.parts (Utf8.encode path.toList)).any (·.isEmpty)

end Glob
end TestBench
