import TestBench.Json.Printer
import TestBench.Text.Lowercase
/-
  What an executor observed, flattened to leaves under dotted paths.

  1. A value is taken apart under the root `result`.  Null has no leaf; an empty object is a leaf
     itself; an array gives its length under `__len__` and its items under their positions.
  2. Paths are kept in lower case and looked up in lower case.  Where two paths fall together, the
     leaf that was put in later stays.
-/
namespace TestBench

open TestBench.Text

/-- Leaves by path, sorted by path, each path in lower case and at most once. -/
structure Observed where
  entries : List (String × Json)
  deriving Repr, Inhabited

namespace Observed

def empty : Observed := ⟨[]⟩

def insert (observed : Observed) (path : String) (leaf : Json) : Observed :=
  ⟨Json.insertField (lowercase path) leaf observed.entries⟩

def get? (observed : Observed) (path : String) : Option Json :=
  Json.lookup (lowercase path) observed.entries

def size (observed : Observed) : Nat := observed.entries.length

/-- The path every leaf hangs off. -/
def root : String := "result"

/-- The last part of the path that holds the length of an array. -/
def lengthKey : String := "__len__"

def below (path key : String) : String := path ++ "." ++ key

mutual

/-- The leaves of a value under a path, in the order in which they are put in. -/
def leaves (path : String) : Json → List (String × Json)
  | .null => []
  | .object [] => [(path, .object [])]
  | .object (f :: fields) => fieldLeaves path (f :: fields)
  | .array items => (below path lengthKey, Json.nat items.length) :: itemLeaves path 0 items
  | v => [(path, v)]

def fieldLeaves (path : String) : List (String × Json) → List (String × Json)
  | [] => []
  | (key, v) :: rest => leaves (below path key) v ++ fieldLeaves path rest

def itemLeaves (path : String) (index : Nat) : List Json → List (String × Json)
  | [] => []
  | v :: rest => leaves (below path (toString index)) v ++ itemLeaves path (index + 1) rest

end

/-- A value taken apart under the root. -/
def ofJson (v : Json) : Observed :=
  (leaves root v).foldl (fun observed (path, leaf) => observed.insert path leaf) empty

theorem get?_insert (observed : Observed) (path path' : String) (leaf : Json) :
    (observed.insert path leaf).get? path'
      = if lowercase path = lowercase path' then some leaf else observed.get? path' :=
  Json.lookup_insertField ..

end Observed

/-- The text of a leaf as assertions compare it: a string as it is, null as nothing, all else as
    JSON. -/
def Json.plainText : Json → String
  | .text s => s
  | .null => ""
  | v => v.compact

end TestBench
