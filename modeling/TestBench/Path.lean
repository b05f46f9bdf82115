import TestBench.Text.Search
/-
  Paths as texts, read as sequences of segments.

  1. Segments are separated by slashes; empty ones and dots inside a path do not count, but a dot in
     front does.  Two texts with the same segments name the same place (`Path.segments`).
  2. Cutting a path at its last segment works on the text: what is left keeps its spelling, separators
     and dots at its end apart (`Path.parent?`).
  3. Paths are ordered segment by segment, not character by character (`Path.le`).
-/
namespace TestBench

open TestBench.Text

/-- A part of a path. -/
inductive Segment where
  | root
  | here
  | up
  | name (text : String)
  deriving Repr, DecidableEq, Inhabited

namespace Segment

def rank : Segment → Nat
  | root => 0
  | here => 1
  | up => 2
  | name _ => 3

def lt (a b : Segment) : Bool :=
  match a, b with
  | name s, name t => s < t
  | a, b => a.rank < b.rank

/-- The segment that a piece between slashes stands for; `first` says that nothing stands before. -/
def ofPiece? (first : Bool) (piece : List Char) : Option Segment :=
  if piece.isEmpty then none
  else if piece = ['.'] then (if first then some here else none)
  else if piece = ['.', '.'] then some up
  else some (name (String.ofList piece))

end Segment

namespace Path

def isAbsolute (path : String) : Bool := path.toList.head? == some '/'

/-- The segments of a path. -/
def segments (path : String) : List Segment :=
  let pieces := splitChar '/' path.toList
  let head := if isAbsolute path then some .root else (pieces.head?.bind (Segment.ofPiece? true))
  head.toList ++ pieces.tail.filterMap (Segment.ofPiece? false)

/-- The text of a segment inside a path. -/
def segmentText : Segment → String
  | .root => ""
  | .here => "."
  | .up => ".."
  | .name s => s

/-- Whether the segments of one path come before or equal those of another. -/
def segmentsLe : List Segment → List Segment → Bool
  | [], _ => true
  | _ :: _, [] => false
  | a :: as, b :: bs => if a = b then segmentsLe as bs else a.lt b

/-- The order of paths, segment by segment. -/
def le (p q : String) : Bool := segmentsLe (segments p) (segments q)

/-- Puts a path behind a directory; an absolute path stays as it is. -/
def join (directory path : String) : String :=
  if isAbsolute path || directory.isEmpty then path
  else if directory.toList.getLast? == some '/' then directory ++ path
  else directory ++ "/" ++ path

/-! ## Cutting at the end -/

/-- Drops separators and dots at the end of a path that is given last character first. -/
def trimReversed : List Char → List Char
  | ['/'] => ['/']
  | '/' :: rest => trimReversed rest
  | ['.'] => ['.']
  | ['.', '/'] => ['/']
  | '.' :: '/' :: rest => trimReversed rest
  | cs => cs

/-- The path without separators and dots at its end. -/
def trimEnd (path : String) : String := String.ofList (trimReversed path.toList.reverse).reverse

/-- The path without its last segment; nothing stands above the root or an empty path. -/
def parent? (path : String) : Option String :=
  match (segments path).getLast? with
  | none => none
  | some .root => none
  | some _ =>
    let body := trimReversed path.toList.reverse
    some (trimEnd (String.ofList (body.dropWhile (· ≠ '/')).reverse))

/-- The last segment, if it is a name. -/
def fileName? (path : String) : Option String :=
  match (segments path).getLast? with
  | some (.name s) => some s
  | _ => none

/-- What stands behind the last dot of a name, unless the dot is its first character. -/
def extensionOf? (name : String) : Option String :=
  let reversed := name.toList.reverse
  let ending := reversed.takeWhile (· ≠ '.')
  if reversed.length ≤ ending.length + 1 then none else some (String.ofList ending.reverse)

/-- The extension of the last segment. -/
def extension? (path : String) : Option String := (fileName? path).bind extensionOf?

/-! ## Cutting at the front -/

/-- The text behind the first `n` pieces that are segments; `first` says that nothing was cut. -/
def behind : Nat → Bool → List (List Char) → List (List Char)
  | _, _, [] => []
  | n, first, piece :: rest =>
    match Segment.ofPiece? first piece with
    | none => behind n false rest
    | some _ =>
      match n with
      | 0 => piece :: rest
      | n + 1 => behind n false rest

/-- The path relative to a directory whose segments it begins with. -/
def below? (directory path : String) : Option String :=
  let ds := segments directory
  if ds.isPrefixOf (segments path) then
    let pieces := splitChar '/' path.toList
    let rest :=
      if isAbsolute path && !ds.isEmpty then behind (ds.length - 1) false pieces
      else if ds.isEmpty then pieces
      else behind ds.length true pieces
    some (trimEnd (String.ofList (joinChar '/' rest)))
  else none

end Path
end TestBench
