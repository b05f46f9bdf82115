import TestBench.Files.Lookup
import TestBench.Shell.Pattern
/-
  From expanded words to fields.

  1. An expanded word is a list of pieces, which know whether quotes take away the meaning of their
     characters, and whether they are split.
  2. Separators are the characters of one variable.  Blanks among them come in runs, and around another
     separator; each other one ends a field, even an empty one (`split`).
  3. A field with a wild character stands for the files that it is a pattern of, if there are any; names
     that begin with a dot only match a pattern that does (`expandFiles`).
-/
namespace TestBench.Shell

inductive Piece where
  /-- Makes a field even if it is empty. -/
  | quoted (s : Octets)
  | literal (s : Octets)
  | splittable (s : Octets)
  /-- The end of an argument among several. -/
  | argumentEnd
  /-- No arguments where some could be: empty quotes beside them make no field. -/
  | noArguments
  deriving Repr, DecidableEq, Inhabited

namespace Piece

def glyphs : Piece → List Glyph
  | quoted s => s.map (⟨·, true⟩)
  | literal s => s.map (⟨·, false⟩)
  | splittable s => s.map (⟨·, false⟩)
  | argumentEnd => [⟨' ', true⟩]
  | noArguments => []

end Piece

/-- The text of an expanded word where words are not split. -/
def joinPieces (pieces : List Piece) : Octets := pieces.flatMap fun p => p.glyphs.map (·.char)

/-! ## Splitting -/

/-- What stands before the next character of a field. -/
inductive Gap where
  | none
  | blank
  | separator
  deriving Repr, DecidableEq, Inhabited

/-- Fields that are being split; the last field and the last glyph come first. -/
structure Splitting where
  fields : List (List Glyph)
  current : Option (List Glyph)
  gap : Gap
  deriving Inhabited

namespace Splitting

def start : Splitting := ⟨[], none, .none⟩

/-- Adds to the field. -/
def add (s : Splitting) (g : List Glyph) : Splitting :=
  { s with current := some (g.reverse ++ s.current.getD []), gap := .none }

/-- Ends the field, if there is one. -/
def finish (s : Splitting) : Splitting :=
  match s.current with
  | some g => { s with fields := g.reverse :: s.fields, current := none }
  | none => s

def char (separators : Octets) (s : Splitting) (c : Char) : Splitting :=
  if !separators.contains c then s.add [⟨c, false⟩]
  else if c = ' ' || c = '\t' || c = '\n' then
    { s.finish with gap := if s.gap = .separator then .separator else .blank }
  else if s.current.isNone && s.gap ≠ .blank then
    { s with fields := [] :: s.fields, gap := .separator }
  else { s.finish with gap := .separator }

def piece (separators : Octets) (s : Splitting) : Piece → Splitting
  | .splittable text => text.foldl (char separators) s
  | .literal text => if text.isEmpty then s else s.add (text.map (⟨·, false⟩))
  | .quoted text => s.add (text.map (⟨·, true⟩))
  | .argumentEnd => s.finish
  | .noArguments => s

end Splitting

/-- The fields of an expanded word. -/
def split (separators : Octets) (pieces : List Piece) : List (List Glyph) :=
  let pieces := if pieces.contains .noArguments then pieces.filter (· ≠ .quoted []) else pieces
  (pieces.foldl (Splitting.piece separators) Splitting.start).finish.fields.reverse

/-! ## Files -/

/-- The parts of a pattern between separators of a path. -/
def pathParts : List Glyph → List (List Glyph)
  | [] => [[]]
  | g :: rest =>
    if g.char = '/' then [] :: pathParts rest
    else match pathParts rest with
      | part :: parts => (g :: part) :: parts
      | [] => [[g]]

/-- The paths that begin with `path` and go on as the parts say. -/
def matchParts (files : Files) : List (List Glyph) → Octets → List Octets
  | [], path => [path]
  | [part], path => matchPart files part path fun name => [path ++ name]
  | part :: rest, path =>
    matchPart files part path fun name =>
      let next := path ++ name ++ ['/']
      if files.isDirectory (Octets.toString next) then matchParts files rest next else []
where
  matchPart (files : Files) (part : List Glyph) (path : Octets) (goOn : Octets → List Octets) :
      List Octets :=
    if !Pattern.isWild part then
      let name := part.map (·.char)
      let found := (files.node (Octets.toString (path ++ name))).toOption.isSome
      if name.isEmpty || found then goOn name else []
    else
      let pattern := Pattern.ofGlyphs part
      let wantsDot := part.head?.any (·.char = '.')
      let directory := if path.isEmpty then "." else Octets.toString path
      let names := ((files.list directory).toOption.getD []).map fun e => Octets.ofString e.1
      ((names.filter fun n => (n.head? ≠ some '.' || wantsDot) && pattern.accepts n)).flatMap goOn

/-- The files that a field stands for, or the field itself. -/
def expandFiles (files : Files) (field : List Glyph) : List Octets :=
  let plain := field.map (·.char)
  if !Pattern.isWild field then [plain]
  else match matchParts files (pathParts field) [] with
    | [] => [plain]
    | paths => paths.mergeSort fun a b => (compare a b).isLE

end TestBench.Shell
