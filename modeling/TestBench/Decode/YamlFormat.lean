import TestBench.Decode.Record
import TestBench.Yaml.Schema
/-
  Records in YAML.

  The kind of a scalar is what its place asks for: any scalar is a text, whatever its quotes and tag,
  and only plain ones are truth values or words.  A record is a mapping with scalar keys; where a
  mapping or a list is asked for, an empty plain scalar stands for an empty one.
-/
namespace TestBench.Yaml.Node

/-- Which form a node has, for messages. -/
def found : Node → String
  | .scalar _ s _ => foundText s
  | .sequence .. => "sequence"
  | .mapping .. => "map"
  | .bottomless => "nothing"

def asText : Node → Except Refusal String
  | .scalar _ s _ => .ok s
  | n => .error (.invalidType n.found "a string")

def asTruth : Node → Except Refusal Bool
  | .scalar tag s plain =>
    match if plain then truth? s else none with
    | some b => .ok b
    | none => .error (.invalidType (found (.scalar tag s plain)) "a boolean")
  | n => .error (.invalidType n.found "a boolean")

def asWord (what : String) : Node → Except Refusal Nat
  | .scalar tag s plain =>
    match if plain then natural? Text.wordLimit s.toList else none with
    | some n => .ok n
    | none => .error (.invalidType (found (.scalar tag s plain)) what)
  | n => .error (.invalidType n.found what)

def asFlag (n : Node) : Except Refusal Bool :=
  match n.value? with
  | some (.bool b) => .ok b
  | some (.number (.int k)) => if 0 ≤ k then .ok (0 < k) else .error (.noVariant "Flag")
  | _ => .error (.noVariant "Flag")

def asItems : Node → Except Refusal (List Node)
  | .sequence _ items => .ok items
  | n => if n.isBlank then .ok [] else .error (.invalidType n.found "a sequence")

def asEntries (n : Node) : Except Refusal Entries :=
  match n.entries? with
  | some entries => .ok entries
  | none => .error (.invalidType n.found "a YAML mapping")

def namedParts : List (Node × Node) → Except Refusal (List (String × Node))
  | [] => .ok []
  | (k, v) :: rest => do return (← k.asText, v) :: (← namedParts rest)

def asParts (what : String) : Node → Except Refusal (Parts Node)
  | .mapping _ entries => (namedParts entries).map .named
  | n => if n.isBlank then .ok (.named []) else .error (.invalidType n.found what)

/-- YAML as a format of records. -/
def format : Format Node where
  text := asText
  truth := asTruth
  word := asWord
  flag := asFlag
  items := asItems
  entries := asEntries
  parts := asParts

end TestBench.Yaml.Node
