import TestBench.Yaml.Style
import TestBench.Json.Printer
/-
  YAML text of a value, in block style.

  1. A collection in a list item or behind an explicit mark begins on the same line, two columns
     further right (`Place.compact`).  Behind a key it begins on the next line; a list then stands in
     the column of the key, a mapping two further right (`Place.behindKey`).
  2. Empty collections are written in brackets.  A tag stands in front of its value and sends a
     collection to the next line.
  3. A key is written in front of a colon if it is short and on one line; other keys stand behind a
     question mark.
-/
namespace TestBench.Yaml

open TestBench.Decimal

/-- The layout of numbers in YAML. -/
def floatStyle : FloatStyle where
  low := some (-5)
  high := some 16
  plus := ""
  nan := ".nan"
  infinity := ".inf"

/-- The text of a value that is no collection. -/
def scalarText (indent : Nat) (inKey : Bool) : Yaml → String
  | .null => "null"
  | .bool b => if b then "true" else "false"
  | .number (.int n) => toString n
  | .number (.float x) => floatStyle.text x
  | .text s => styledText indent (styleOf inKey s) s
  | .sequence _ => "[]"
  | .mapping _ => "\x7b\x7d"
  | .tagged _ _ => ""

/-- How many bytes a key on one line may have. -/
def keyLimit : Nat := 128

/-- Whether a key can stand in front of its colon. -/
def isSimpleKey : Yaml → Bool
  | .text s => !s.toList.any breaksLine && s.utf8ByteSize ≤ keyLimit
  | .sequence items => items.isEmpty
  | .mapping entries => entries.isEmpty
  | .tagged tag v =>
    match v with
    | .text s => !s.toList.any breaksLine && s.utf8ByteSize + tag.utf8ByteSize + 1 ≤ keyLimit
    | .sequence items => items.isEmpty
    | .mapping entries => entries.isEmpty
    | _ => true
  | _ => true

/-- Where a value stands. -/
inductive Place where
  | compact
  | behindKey
  deriving DecidableEq

/-- Ends the line unless a block of text ended it already. -/
def freshLine (out : String) (indent : Nat) : String :=
  (if out.isEmpty || out.toList.getLast? == some '\n' then out else out ++ "\n") ++ spaces indent

/-- Where the first part of a collection goes: on the same line, or on one of its own. -/
def beginPart (place : Place) (first : Bool) (indent : Nat) (out : String) : String :=
  if first && place = .compact then out ++ " " else freshLine out indent

mutual

/-- Writes a value behind what is written so far; `indent` is the column of the collection around. -/
def writeValue (place : Place) (indent : Nat) (out : String) : Yaml → String
  | .sequence (v :: items) =>
    writeItems place true (if place = .compact then indent + 2 else indent) out (v :: items)
  | .mapping (e :: entries) => writeEntries place true (indent + 2) out (e :: entries)
  | .tagged tag (.sequence (v :: items)) =>
    writeItems .behindKey true (if place = .compact then indent + 2 else indent)
      (out ++ " !" ++ tag) (v :: items)
  | .tagged tag (.mapping (e :: entries)) =>
    writeEntries .behindKey true (indent + 2) (out ++ " !" ++ tag) (e :: entries)
  | .tagged tag v => out ++ " !" ++ tag ++ " " ++ scalarText (indent + 2) false v
  | v => out ++ " " ++ scalarText (indent + 2) false v

/-- Writes the items of a list that stands in a column. -/
def writeItems (place : Place) (first : Bool) (indent : Nat) (out : String) : List Yaml → String
  | [] => out
  | v :: rest =>
    let out := beginPart place first indent out ++ "-"
    writeItems place false indent (writeValue .compact indent out v) rest

/-- Writes the entries of a mapping that stands in a column. -/
def writeEntries (place : Place) (first : Bool) (indent : Nat) (out : String) :
    List (Yaml × Yaml) → String
  | [] => out
  | (k, v) :: rest =>
    let out := beginPart place first indent out
    let out :=
      if isSimpleKey k then
        let key := match k with
          | .tagged tag k => "!" ++ tag ++ " " ++ scalarText (indent + 2) true k
          | k => scalarText (indent + 2) true k
        writeValue .behindKey indent (out ++ key ++ ":") v
      else
        let out := writeValue .compact indent (out ++ "?") k
        writeValue .compact indent (freshLine out indent ++ ":") v
    writeEntries place false indent out rest

end

/-- The text of a document whose root is a mapping with entries.  It is taken that a text can be written
    for every value, also for one with a collection or a tag in a key, where a writer may give up
    instead. -/
def print (entries : List (Yaml × Yaml)) : String :=
  freshLine (writeEntries .behindKey true 0 "" entries) 0

end TestBench.Yaml
