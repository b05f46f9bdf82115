import TestBench.Json.Basic
import TestBench.Text.Search
/-
  Aliases: names for texts, referred to as a name between double braces.

  1. An entry binds the text before its first colon to all that follows; an entry without a colon
     binds nothing, and the last entry of a name wins.
  2. Expansion is one pass from left to right.  A reference to a bound name is replaced by its
     value, which is not looked at again; a reference to an unbound name keeps its two braces and
     the pass goes on right behind them; braces that are never closed stay as they are.
-/
namespace TestBench

open TestBench.Text

/-- Bindings of names to texts, sorted by name, each name at most once. -/
structure Aliases where
  bindings : List (String × String)
  deriving Repr, DecidableEq, Inhabited

namespace Aliases

def empty : Aliases := ⟨[]⟩

/-- The name and the value that an entry binds. -/
def binding? (entry : String) : Option (String × String) :=
  (splitOnce [':'] entry.toList).map fun (name, value) => (String.ofList name, String.ofList value)

def bind (aliases : Aliases) (name value : String) : Aliases :=
  ⟨Json.insertField name value aliases.bindings⟩

def get? (aliases : Aliases) (name : String) : Option String := Json.lookup name aliases.bindings

def size (aliases : Aliases) : Nat := aliases.bindings.length

/-- Binds what an entry binds. -/
def addEntry (aliases : Aliases) (entry : String) : Aliases :=
  match binding? entry with
  | some (name, value) => aliases.bind name value
  | none => aliases

/-- The aliases that a list of entries binds. -/
def ofEntries (entries : List String) : Aliases := entries.foldl addEntry empty

theorem get?_bind (aliases : Aliases) (name name' value : String) :
    (aliases.bind name value).get? name' = if name = name' then some value else aliases.get? name' :=
  Json.lookup_insertField ..

/-! ## Expansion -/

/-- The name of the reference that a text begins with. -/
def reference? : List Char → Option (List Char)
  | '\x7b' :: '\x7b' :: opened => (splitOnce ['\x7d', '\x7d'] opened).map (·.1)
  | _ => none

/-- Expands a text of which the first `skip` characters are dealt with already. -/
def expandFrom (value? : List Char → Option (List Char)) : Nat → List Char → List Char
  | _, [] => []
  | skip + 1, _ :: rest => expandFrom value? skip rest
  | 0, c :: rest =>
    match reference? (c :: rest) with
    | none => c :: expandFrom value? 0 rest
    | some name =>
      match value? name with
      | some value => value ++ expandFrom value? (name.length + 3) rest
      | none => '\x7b' :: '\x7b' :: expandFrom value? 1 rest

def value? (aliases : Aliases) (name : List Char) : Option (List Char) :=
  (aliases.get? (String.ofList name)).map String.toList

/-- Replaces every reference to a bound name by its value. -/
def expand (aliases : Aliases) (text : String) : String :=
  String.ofList (expandFrom aliases.value? 0 text.toList)

end Aliases
end TestBench
