import TestBench.Totals
import TestBench.Timestamp
import TestBench.Decode.Suite
import TestBench.Json.Reader
/-
  A finished run, and its form as a document.

  1. A run is its totals together with when it began and how long it took.
  2. The document keeps the order of declaration.  Records are shown only where there are some; a skip
     mark is written as 0 or 1; a step is written as the mapping it is.
  3. The document is a YAML value; its JSON form exists iff all keys of all steps have one.
  4. Reading a JSON document back does not read counters, packages and records of suites
     (`decodeRun`).
-/
namespace TestBench

structure Run where
  totals : Totals
  startedAt : Timestamp
  durationMs : Nat
  deriving Repr, Inhabited

namespace Yaml

def nat (n : Nat) : Yaml := .number (.int n)

/-- An entry with a textual key. -/
def entry (key : String) (value : Yaml) : Yaml × Yaml := (.text key, value)

/-- Texts as a list of records, left out when there are none. -/
def recordsEntry (key : String) (texts : List String) : List (Yaml × Yaml) :=
  if texts.isEmpty then []
  else [entry key (.sequence (texts.map fun s => .mapping [entry "value" (.text s)]))]

end Yaml

open Yaml

def Case.document (c : Case) : Yaml :=
  .mapping ([entry "name" (.text c.name),
      entry "steps" (.sequence (c.steps.map fun s => .mapping s.entries)),
      entry "skipped" (nat (if c.skipped then 1 else 0))]
    ++ recordsEntry "failures" c.failures ++ recordsEntry "errors" c.errors)

def Suite.document (s : Suite) : Yaml :=
  .mapping
    [entry "name" (.text s.name), entry "package" (.text s.package),
      entry "testcases" (.sequence (s.cases.map Case.document)), entry "total" (nat s.total),
      entry "failures" (nat s.failures), entry "errors" (nat s.errors),
      entry "skipped" (nat s.skipped)]

def Run.document (r : Run) : Yaml :=
  .mapping
    [entry "test_suites" (.sequence (r.totals.suites.map Suite.document)),
      entry "total_ok" (nat r.totals.ok), entry "total_ko" (nat r.totals.ko),
      entry "total_skipped" (nat r.totals.skipped), entry "total" (nat r.totals.total),
      entry "started_at" (.text r.startedAt.text), entry "duration_ms" (nat r.durationMs)]

/-! ## Reading back -/

variable {σ : Type}

def countField (format : Format σ) (name : String) (set : Nat → Run → Run) : Field σ Run :=
  { name, required := true, read := fun v r => (format.word "usize" v).map fun n => set n r }

def runFields (format : Format σ) : List (Field σ Run) :=
  [{ name := "test_suites", required := true
     read := fun v r => (decodeList format (decodeSuite format) v).map fun suites =>
       { r with totals := { r.totals with suites } } },
   countField format "total_ok" fun ok r => { r with totals := { r.totals with ok } },
   countField format "total_ko" fun ko r => { r with totals := { r.totals with ko } },
   countField format "total_skipped" fun skipped r => { r with totals := { r.totals with skipped } },
   countField format "total" fun total r => { r with totals := { r.totals with total } },
   { name := "started_at", required := true
     read := fun v r => do
       match Timestamp.parse? (← format.text v) with
       | some startedAt => .ok { r with startedAt }
       | none => .error .unreadable },
   countField format "duration_ms" fun durationMs r => { r with durationMs }]

/-- Decodes the document of a run. -/
def decodeRun (format : Format σ) (source : σ) : Except Refusal Run :=
  decodeRecord format "Tests" (runFields format) ⟨Totals.empty, ⟨0, 0⟩, 0⟩ source

/-- The run in a JSON text. -/
def Run.ofJson (text : String) : Except Refusal Run :=
  match Json.parse? text with
  | none => .error .unreadable
  | some v => decodeRun Json.format v

end TestBench
