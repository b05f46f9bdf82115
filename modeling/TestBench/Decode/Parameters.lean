import TestBench.Decode.Record
import TestBench.Step
/-
  Parameters of a step.

  The entries of a step are the parts of a record of parameters.  Its values are resolved already, so
  none is converted: a text parameter needs a text, whatever its tag.  Nothing stands for an empty map
  where a map is asked for.  The first entry that cannot be read is reported; an entry whose key is no
  text cannot.
-/
namespace TestBench

open TestBench.Decimal

namespace Yaml

/-- Numbers in messages are never written with a power of ten. -/
def positionalStyle : FloatStyle where
  low := none
  high := none
  plus := ""
  nan := "NaN"
  infinity := "inf"

/-- What a value is called in messages. -/
def found : Yaml → String
  | .null => "unit value"
  | .bool b => foundBool b
  | .number (.int n) => foundInt n
  | .number (.float x) => foundFloat (positionalStyle.text x)
  | .text s => foundText s
  | .sequence _ => "sequence"
  | .mapping _ => "map"
  | .tagged .. => "enum"

def asText (v : Yaml) : Except Refusal String :=
  match v.untagged with
  | .text s => .ok s
  | v => .error (.invalidType v.found "a string")

def asTruth (v : Yaml) : Except Refusal Bool :=
  match v.untagged with
  | .bool b => .ok b
  | v => .error (.invalidType v.found "a boolean")

/-- The entries of a map of texts, sorted by key. -/
def textEntries : Entries → List (String × String) → Except Refusal (List (String × String))
  | [], done => .ok done
  | (k, v) :: rest, done => do
    let k ← k.asText
    let v ← v.asText
    textEntries rest (Json.insertField k v done)

def asTexts (v : Yaml) : Except Refusal (List (String × String)) :=
  match v.untagged with
  | .null => .ok []
  | .mapping entries => textEntries entries []
  | v => .error (.invalidType v.found "a map")

/-- The text that a key is, whatever its tag. -/
def keyText? (key : Yaml) : Option String := key.untagged.text?

end Yaml

namespace Step

/-- The entries before the first one whose key is no text, and that key. -/
def namedParts : Yaml.Entries → List (String × Yaml) × Option Yaml
  | [] => ([], none)
  | (k, v) :: rest =>
    match k.keyText? with
    | none => ([], some k.untagged)
    | some name =>
      let (parts, bad) := namedParts rest
      ((name, v) :: parts, bad)

/-- Decodes the entries of a step into a record of parameters, none of which is required. -/
def parameters {α : Type} (step : Step) (fields : List (Field Yaml α)) (initial : α) :
    Except Refusal α := do
  let (parts, bad) := namedParts step.entries
  let (_, a) ← Field.readNamed fields [] parts initial
  match bad with
  | some key => .error (.invalidType key.found "field identifier")
  | none => return a

end Step
end TestBench
