import TestBench.Json.Basic
import TestBench.Text.Quoted
/-
  JSON text.

  `Json.compact` writes a value without blanks; `Json.pretty` puts every item and field on a line
  of its own, two blanks deeper than what holds it.  Numbers have the fewest digits that read back,
  positional for point positions from -4 to 16 and with a power of ten elsewhere; a number that is
  not finite has no JSON form and is written `null`.
-/
namespace TestBench

open TestBench.Decimal TestBench.Text

namespace Json

/-- The layout of numbers in JSON. -/
def floatStyle : FloatStyle where
  low := some (-5)
  high := some 16
  plus := "+"
  nan := "null"
  infinity := "null"

/-- The text of a number. -/
def numberText : Number → String
  | .int n => toString n
  | .float x => if x.isFinite then floatStyle.text x else "null"

/-- One character as it stands inside a JSON string. -/
def stringChar (c : Char) : String :=
  if c = '"' then "\\\""
  else if c = '\\' then "\\\\"
  else if c = '\n' then "\\n"
  else if c = '\r' then "\\r"
  else if c = '\t' then "\\t"
  else if c.toNat = 8 then "\\b"
  else if c.toNat = 12 then "\\f"
  else if c.toNat < 0x20 then
    "\\u00" ++ (if c.toNat < 16 then "0" else "") ++ hexText c.toNat
  else String.singleton c

/-- A JSON string with its quotes. -/
def stringText (s : String) : String :=
  "\"" ++ String.join (s.toList.map stringChar) ++ "\""

mutual

/-- The text of a value, without blanks. -/
def compact : Json → String
  | .null => "null"
  | .bool b => if b then "true" else "false"
  | .number n => numberText n
  | .text s => stringText s
  | .array items => "[" ++ ",".intercalate (compactItems items) ++ "]"
  | .object fields => "\x7b" ++ ",".intercalate (compactFields fields) ++ "\x7d"

def compactItems : List Json → List String
  | [] => []
  | v :: rest => v.compact :: compactItems rest

def compactFields : List (String × Json) → List String
  | [] => []
  | (k, v) :: rest => (stringText k ++ ":" ++ v.compact) :: compactFields rest

end

/-- A line break followed by two blanks for each level. -/
def newLine (level : Nat) : String :=
  "\n" ++ String.ofList (List.replicate (2 * level) ' ')

/-- Lines between an opening and a closing mark; nothing between them if there are no lines. -/
def block (opening closing : String) (level : Nat) (lines : List String) : String :=
  if lines.isEmpty then opening ++ closing
  else
    opening ++ newLine (level + 1) ++ ("," ++ newLine (level + 1)).intercalate lines
      ++ newLine level ++ closing

mutual

/-- The text of a value over several lines. -/
def prettyAt (level : Nat) : Json → String
  | .array items => block "[" "]" level (prettyItems (level + 1) items)
  | .object fields => block "\x7b" "\x7d" level (prettyFields (level + 1) fields)
  | .null => "null"
  | .bool b => if b then "true" else "false"
  | .number n => numberText n
  | .text s => stringText s

def prettyItems (level : Nat) : List Json → List String
  | [] => []
  | v :: rest => v.prettyAt level :: prettyItems level rest

def prettyFields (level : Nat) : List (String × Json) → List String
  | [] => []
  | (k, v) :: rest => (stringText k ++ ": " ++ v.prettyAt level) :: prettyFields level rest

end

/-- The text of a value over several lines, from the left margin. -/
def pretty (v : Json) : String := v.prettyAt 0

end Json
end TestBench
