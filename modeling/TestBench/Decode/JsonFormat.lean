import TestBench.Decode.Record
import TestBench.Json.Basic
/-
  Records in JSON.

  Every value has its own kind and none is converted.  A record is an object, or an array of its
  fields in order.  Of the numbers only whole ones that fit are words.
-/
namespace TestBench.Json

mutual

/-- A JSON value as a YAML value; an object in which a key occurs twice is refused. -/
def toYaml : Json → Except Refusal Yaml
  | .null => .ok .null
  | .bool b => .ok (.bool b)
  | .number n => .ok (.number n)
  | .text s => .ok (.text s)
  | .array items => (yamlItems items).map .sequence
  | .object fields => (yamlEntries fields).map .mapping

def yamlItems : List Json → Except Refusal (List Yaml)
  | [] => .ok []
  | v :: rest => do return (← v.toYaml) :: (← yamlItems rest)

def yamlEntries : List (String × Json) → Except Refusal (List (Yaml × Yaml))
  | [] => .ok []
  | (k, v) :: rest => do
    let v ← v.toYaml
    let entries ← yamlEntries rest
    if Yaml.hasKey (.text k) entries then .error .unreadable else .ok ((.text k, v) :: entries)

end

def asText : Json → Except Refusal String
  | .text s => .ok s
  | v => .error (.invalidType v.found "a string")

def asTruth : Json → Except Refusal Bool
  | .bool b => .ok b
  | v => .error (.invalidType v.found "a boolean")

def asWord (what : String) : Json → Except Refusal Nat
  | .number (.int n) =>
    if 0 ≤ n ∧ n < Text.wordLimit then .ok n.toNat else .error (.invalidValue (foundInt n) what)
  | v => .error (.invalidType v.found what)

def asFlag : Json → Except Refusal Bool
  | .bool b => .ok b
  | .number (.int n) => if 0 ≤ n then .ok (0 < n) else .error (.noVariant "Flag")
  | _ => .error (.noVariant "Flag")

def asItems : Json → Except Refusal (List Json)
  | .array items => .ok items
  | v => .error (.invalidType v.found "a sequence")

def asEntries : Json → Except Refusal Yaml.Entries
  | .object fields => yamlEntries fields
  | v => .error (.invalidType v.found "a YAML mapping")

def asParts (what : String) : Json → Except Refusal (Parts Json)
  | .object fields => .ok (.named fields)
  | .array items => .ok (.positional items)
  | v => .error (.invalidType v.found what)

/-- JSON as a format of records. -/
def format : Format Json where
  text := asText
  truth := asTruth
  word := asWord
  flag := asFlag
  items := asItems
  entries := asEntries
  parts := asParts

end TestBench.Json
