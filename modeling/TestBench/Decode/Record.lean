import TestBench.Decode.Refusal
import TestBench.Text.Whole
import TestBench.Yaml.Value
/-
  Decoding records from any format.

  1. A record is described by its fields (`Field`): each has a name, perhaps other names, and a way to
     put a decoded value into the record under construction.
  2. A format (`Format`) says how a value of it is read as a text, a truth value, a word, a list, or
     the parts of a record.  Parts come by name or by position (`Parts`).
  3. By name, parts are read in their order; an unknown name is passed over, a repeated field is
     refused, and a required field must occur.  By position, parts fill the fields in their order; only
     fields that may be missing may be left out at the end.
-/
namespace TestBench

/-- The parts of a record in a document. -/
inductive Parts (σ : Type) where
  | named (entries : List (String × σ))
  | positional (items : List σ)

/-- How values of a format are read. -/
structure Format (σ : Type) where
  text : σ → Except Refusal String
  truth : σ → Except Refusal Bool
  /-- A whole number that fits a word; the text is what messages call it. -/
  word : String → σ → Except Refusal Nat
  /-- A truth value, or a whole number that counts as one iff it is positive. -/
  flag : σ → Except Refusal Bool
  items : σ → Except Refusal (List σ)
  entries : σ → Except Refusal Yaml.Entries
  /-- The parts of a record; the text is what messages call the record. -/
  parts : String → σ → Except Refusal (Parts σ)

/-- A field of a record of type `α`. -/
structure Field (σ α : Type) where
  name : String
  otherNames : List String := []
  required : Bool := false
  read : σ → α → Except Refusal α

namespace Field

variable {σ α : Type}

def answersTo (f : Field σ α) (name : String) : Bool := f.name == name || f.otherNames.contains name

/-- Reads named parts; `seen` holds the names of the fields read so far. -/
def readNamed (fields : List (Field σ α)) : List String → List (String × σ) → α →
    Except Refusal (List String × α)
  | seen, [], a => .ok (seen, a)
  | seen, (name, part) :: rest, a =>
    match fields.find? (·.answersTo name) with
    | none => readNamed fields seen rest a
    | some f =>
      if seen.contains f.name then .error (.duplicateField f.name)
      else
        match f.read part a with
        | .error e => .error e
        | .ok a => readNamed fields (f.name :: seen) rest a

/-- The first required field that did not occur. -/
def firstMissing? (fields : List (Field σ α)) (seen : List String) : Option (Field σ α) :=
  fields.find? fun f => f.required && !seen.contains f.name

/-- Reads parts by position; `count` fields were read so far. -/
def readPositional (lengthText : String) : Nat → List (Field σ α) → List σ → α → Except Refusal α
  | _, [], [], a => .ok a
  | count, [], items, _ => .error (.invalidLength (count + items.length) "fewer elements in array")
  | count, f :: fields, [], a =>
    if f.required then .error (.invalidLength count lengthText)
    else readPositional lengthText (count + 1) fields [] a
  | count, f :: fields, part :: rest, a =>
    match f.read part a with
    | .error e => .error e
    | .ok a => readPositional lengthText (count + 1) fields rest a

end Field

/-- Decodes a record: `initial` holds the values of the fields that may be missing. -/
def decodeRecord {σ α : Type} (format : Format σ) (what : String) (fields : List (Field σ α))
    (initial : α) (source : σ) : Except Refusal α := do
  match ← format.parts s!"struct {what}" source with
  | .named entries =>
    let (seen, a) ← Field.readNamed fields [] entries initial
    match Field.firstMissing? fields seen with
    | some f => .error (.missingField f.name)
    | none => return a
  | .positional items =>
    Field.readPositional s!"struct {what} with {fields.length} elements" 0 fields items initial

/-- Decodes a list by decoding each of its items. -/
def decodeList {σ α : Type} (format : Format σ) (item : σ → Except Refusal α) (source : σ) :
    Except Refusal (List α) := do
  (← format.items source).mapM item

end TestBench
