import TestBench.Decode.JsonFormat
import TestBench.Decode.YamlFormat
import TestBench.Suite
/-
  Suite documents.

  A suite has a name and cases; a case has a name, steps and a skip mark.  Counters and records that a
  document may hold are not read: they belong to runs.
-/
namespace TestBench

variable {σ : Type}

def decodeStep (format : Format σ) (source : σ) : Except Refusal Step :=
  (format.entries source).map Step.mk

def caseFields (format : Format σ) : List (Field σ Case) :=
  [{ name := "name", required := true
     read := fun v c => (format.text v).map fun name => { c with name } },
   { name := "steps", otherNames := ["testSteps"]
     read := fun v c => (decodeList format (decodeStep format) v).map fun steps => { c with steps } },
   { name := "skip", otherNames := ["skipped"]
     read := fun v c => (format.flag v).map fun skipped => { c with skipped } }]

def decodeCase (format : Format σ) (source : σ) : Except Refusal Case :=
  decodeRecord format "TestCase" (caseFields format) (Case.fresh "" [] false) source

def suiteFields (format : Format σ) : List (Field σ Suite) :=
  [{ name := "name", required := true
     read := fun v s => (format.text v).map fun name => { s with name } },
   { name := "testcases"
     read := fun v s => (decodeList format (decodeCase format) v).map fun cases => { s with cases } }]

/-- Decodes a suite document. -/
def decodeSuite (format : Format σ) (source : σ) : Except Refusal Suite :=
  decodeRecord format "TestSuite" (suiteFields format) (Suite.fresh "" []) source

/-- Decodes the text of a YAML document. -/
def decodeYamlText {α : Type} (decode : Yaml.Node → Except Refusal α) (text : String) :
    Except Refusal α :=
  match Yaml.parse? text with
  | none => .error .unreadable
  | some node => decode node

/-- The suite in the text of a file. -/
def Suite.ofYaml (text : String) : Except Refusal Suite :=
  decodeYamlText (decodeSuite Yaml.Node.format) text

/-- The step in a text. -/
def Step.ofYaml (text : String) : Except Refusal Step :=
  decodeYamlText (decodeStep Yaml.Node.format) text

end TestBench
