import TestBench.Files.Node
import TestBench.Path
/-
  Finding files by path.

  1. A path is followed piece by piece from the root or from the working directory.  Only directories
     can be entered; a link is followed at once, also at the end of a path, and links may lead to
     links up to a limit (`Files.follow`).
  2. Following ends at a spot: a place, and what is there.  The last piece may be missing, for a file
     can be made there, but nothing before it.
  3. Reading, listing and writing start from the spot; each failure is one of a few causes.

  Everything in a tree may be read, listed, entered and changed, and no device fails.  So the causes are
  those that the shape of the tree gives, and none is for want of a permission.
-/
namespace TestBench

open TestBench.Text
open TestBench.Text.Utf8 (Bytes)

/-- Why a file cannot be used. -/
inductive FileError where
  | missing
  | exists
  | notDirectory
  | isDirectory
  | notEmpty
  | tooManyLinks
  | notText
  deriving Repr, DecidableEq, Inhabited

namespace FileError

/-- The cause in words. -/
def text : FileError → String
  | missing => "No such file or directory"
  | .exists => "File exists"
  | notDirectory => "Not a directory"
  | isDirectory => "Is a directory"
  | notEmpty => "Directory not empty"
  | tooManyLinks => "Too many levels of symbolic links"
  | notText => "stream did not contain valid UTF-8"

/-- The number that the system gives to the cause; one of them is not the system's. -/
def number? : FileError → Option Nat
  | missing => some 2
  | .exists => some 17
  | notDirectory => some 20
  | isDirectory => some 21
  | notEmpty => some 39
  | tooManyLinks => some 40
  | notText => none

def message (e : FileError) : String :=
  match e.number? with
  | some n => s!"{e.text} (os error {n})"
  | none => e.text

end FileError

/-- A tree seen from a working directory. -/
structure Files where
  root : FileNode
  base : Place
  deriving Repr, Inhabited

/-- A place that a path leads to, and what is there. -/
structure Spot where
  place : Place
  node? : Option FileNode
  deriving Repr, Inhabited

namespace Files

/-- What is at a place. -/
def spotAt (files : Files) (place : Place) : Spot := ⟨place, files.root.at? place⟩

/-- Enters a piece of a path; `follow` follows the target of a link from a directory. -/
def enter (files : Files) (follow : Place → String → Except FileError Spot) (spot : Spot)
    (piece : String) : Except FileError Spot :=
  match spot.node? with
  | none => .error .missing
  | some (.directory entries) =>
    if piece = "" ∨ piece = "." then .ok spot
    else if piece = ".." then .ok (files.spotAt spot.place.dropLast)
    else match Json.lookup piece entries with
      | some (.link target) => follow spot.place target
      | node? => .ok ⟨spot.place ++ [piece], node?⟩
  | some _ => .error .notDirectory

/-- The pieces of a path between its separators. -/
def pieces (path : String) : List String := (splitChar '/' path.toList).map String.ofList

/-- Follows a path from a directory, through at most so many links in one another. -/
def follow (files : Files) : Nat → Place → String → Except FileError Spot
  | 0, _, _ => .error .tooManyLinks
  | links + 1, start, path =>
    if path.isEmpty then .error .missing
    else
      let start := if Path.isAbsolute path then [] else start
      (pieces path).foldlM (files.enter (files.follow links)) (files.spotAt start)

/-- How many links may lead to one another. -/
def linkLimit : Nat := 40

/-- Where a path leads. -/
def locate (files : Files) (path : String) : Except FileError Spot :=
  files.follow (linkLimit + 1) files.base path

/-- The node that a path leads to. -/
def node (files : Files) (path : String) : Except FileError FileNode := do
  match (← files.locate path).node? with
  | some node => return node
  | none => .error .missing

def isFile (files : Files) (path : String) : Bool :=
  match files.node path with
  | .ok node => node.isFile
  | .error _ => false

def isDirectory (files : Files) (path : String) : Bool :=
  match files.node path with
  | .ok node => node.isDirectory
  | .error _ => false

/-! ## Reading -/

def read (files : Files) (path : String) : Except FileError Bytes := do
  match ← files.node path with
  | .file bytes _ => return bytes
  | _ => .error .isDirectory

def readText (files : Files) (path : String) : Except FileError String := do
  match Utf8.decode? (← files.read path) with
  | some s => return String.ofList s
  | none => .error .notText

/-- The entries of a directory.  There is no directory that may not be listed, so this fails only where
    there is none. -/
def list (files : Files) (path : String) : Except FileError (List (String × FileNode)) := do
  match ← files.node path with
  | .directory entries => return entries
  | _ => .error .notDirectory

/-! ## Writing -/

/-- Puts a node at a place. -/
def put (files : Files) (place : Place) (node : FileNode) : Files :=
  { files with root := node.put files.root place }

/-- Makes what a path leads to a file with other bytes; `change` makes them from the old ones. -/
def alter (files : Files) (path : String) (change : Bytes → Bytes) : Except FileError Files := do
  let spot ← files.locate path
  match spot.node? with
  | some (.file bytes mode) => return files.put spot.place (.file (change bytes) mode)
  | some _ => .error .isDirectory
  | none => return files.put spot.place (.file (change []) FileNode.standardMode)

/-- Writes a file. -/
def write (files : Files) (path : String) (bytes : Bytes) : Except FileError Files :=
  files.alter path fun _ => bytes

/-- Writes at the end of a file. -/
def append (files : Files) (path : String) (bytes : Bytes) : Except FileError Files :=
  files.alter path (· ++ bytes)

/-- The tree seen from the directory that a path leads to. -/
def enterDirectory (files : Files) (path : String) : Except FileError Files := do
  let spot ← files.locate path
  match spot.node? with
  | some (.directory _) => return { files with base := spot.place }
  | some _ => .error .notDirectory
  | none => .error .missing

end Files
end TestBench
