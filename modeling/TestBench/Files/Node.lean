import TestBench.Json.Basic
import TestBench.Text.Utf8
/-
  Files, directories and links.

  1. A directory is a list of named nodes, sorted by name, each name at most once; a link holds the
     text of the path that it stands for.
  2. A place in a tree is the list of names that leads to it from the root, without any link on the
     way; `FileNode.at?` looks there and `FileNode.put` puts a node there.
-/
namespace TestBench

open TestBench.Text.Utf8 (Bytes)

inductive FileNode where
  | file (bytes : Bytes) (mode : Nat)
  | link (target : String)
  | directory (entries : List (String × FileNode))
  deriving Repr, Inhabited

/-- The names that lead from the root of a tree to a node. -/
abbrev Place := List String

namespace FileNode

def empty : FileNode := .directory []

/-- The mode of a file that nobody asked a mode for. -/
def standardMode : Nat := 6 * 64 + 4 * 8 + 4

def entries : FileNode → List (String × FileNode)
  | .directory entries => entries
  | _ => []

def isFile : FileNode → Bool
  | .file .. => true
  | _ => false

def isDirectory : FileNode → Bool
  | .directory _ => true
  | _ => false

/-- The node at a place. -/
def at? : FileNode → Place → Option FileNode
  | node, [] => some node
  | node, name :: rest => (Json.lookup name node.entries).bind (·.at? rest)

/-- Puts a node at a place; directories that are missing on the way are made. -/
def put (new : FileNode) : FileNode → Place → FileNode
  | _, [] => new
  | node, name :: rest =>
    let child := (Json.lookup name node.entries).getD empty
    .directory (Json.insertField name (put new child rest) node.entries)

/-- Takes away what is at a place, except at the root. -/
def remove : FileNode → Place → FileNode
  | node, [] => node
  | node, [name] => .directory (node.entries.filter (·.1 ≠ name))
  | node, name :: rest =>
    match Json.lookup name node.entries with
    | none => node
    | some child => .directory (Json.insertField name (child.remove rest) node.entries)

mutual

/-- The number of nodes of a tree. -/
def count : FileNode → Nat
  | .directory entries => countEntries entries + 1
  | _ => 1

def countEntries : List (String × FileNode) → Nat
  | [] => 0
  | (_, node) :: rest => node.count + countEntries rest

end

theorem at?_put (new node : FileNode) (place : Place) : (put new node place).at? place = some new := by
  induction place generalizing node with
  | nil => rfl
  | cons name rest ih =>
    simp [put, at?, entries, Json.lookup_insertField, ih]

end FileNode
end TestBench
