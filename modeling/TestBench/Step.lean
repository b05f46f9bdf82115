import TestBench.Yaml.Value
import TestBench.Json.Printer
import TestBench.Text.Blank
import TestBench.Text.Whole
/-
  Steps: one invocation of an executor each.

  1. A step is an ordered mapping.  The keys `type`, `retry`, `delay`, `timeout` and `assertions` are
     reserved; all keys together are the parameters of the executor.
  2. A reserved number is a whole number that fits a word, or a text that writes one; anything else
     counts as absent.  Declared assertions are the texts of a sequence, or a single text.
  3. A step has a JSON form iff its keys do (`Yaml.toJson?`).
-/
namespace TestBench

open TestBench.Text

structure Step where
  entries : Yaml.Entries
  deriving Repr, Inhabited

namespace Step

def get? (step : Step) (key : String) : Option Yaml := Yaml.lookup key step.entries

/-- The type of a step that declares none. -/
def defaultType : String := "exec"

/-- The declared type, unless it is missing, empty or no text. -/
def typeName (step : Step) : String :=
  match (step.get? "type").bind (·.untagged.text?) with
  | some name => if name.isEmpty then defaultType else name
  | none => defaultType

/-- A whole number that fits a word, as a number or as text. -/
def wordOf? : Yaml → Option Nat
  | .number (.int n) => if 0 ≤ n ∧ n < wordLimit then some n.toNat else none
  | .text s => word64 (trim s.toList)
  | _ => none

def word? (step : Step) (key : String) : Option Nat := (step.get? key).bind wordOf?

def retry? (step : Step) : Option Nat := step.word? "retry"
def delay? (step : Step) : Option Nat := step.word? "delay"
def timeout? (step : Step) : Option Nat := step.word? "timeout"

/-- The assertions that a value declares. -/
def assertionsIn : Yaml → List String
  | .sequence items => items.filterMap (·.untagged.text?)
  | .text s => [s]
  | _ => []

def assertions (step : Step) : List String :=
  ((step.get? "assertions").map assertionsIn).getD []

end Step

/-! ## The JSON form -/

namespace Yaml

/-- The JSON key that a key is written as. -/
def jsonKey? : Yaml → Option String
  | .text s => some s
  | .bool b => some (if b then "true" else "false")
  | .number (.int n) => some (toString n)
  | .number (.float x) => if x.isFinite then some (Json.floatStyle.text x) else none
  | _ => none

mutual

/-- The JSON form of a value: a tag becomes the only key of an object, and a number that is not
    finite becomes null.  A key that is null or a collection has none. -/
def toJson? : Yaml → Option Json
  | .null => some .null
  | .bool b => some (.bool b)
  | .number (.int n) => some (.number (.int n))
  | .number (.float x) => some (if x.isFinite then .number (.float x) else .null)
  | .text s => some (.text s)
  | .sequence items => (itemsJson? items).map .array
  | .mapping entries => (fieldsJson? entries).map .object
  | .tagged tag v => v.toJson?.map fun j => .object [("!" ++ tag, j)]

def itemsJson? : List Yaml → Option (List Json)
  | [] => some []
  | v :: rest =>
    match v.toJson?, itemsJson? rest with
    | some j, some js => some (j :: js)
    | _, _ => none

def fieldsJson? : List (Yaml × Yaml) → Option (List (String × Json))
  | [] => some []
  | (k, v) :: rest =>
    match jsonKey? k, v.toJson?, fieldsJson? rest with
    | some k, some j, some js => some ((k, j) :: js)
    | _, _, _ => none

end

end Yaml

namespace Step

/-- The JSON form of a step. -/
def toJson? (step : Step) : Option Json := (Yaml.fieldsJson? step.entries).map .object

end Step
end TestBench
