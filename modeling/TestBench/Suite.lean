import TestBench.Step
/-
  Suites, cases, and the records that a run leaves in them.

  A case collects the texts of errors and failures; it has failed once it holds one.  A suite has
  counters of its own besides its cases: preparing it counts cases and skip marks, and running it
  counts records.
-/
namespace TestBench

/-- A named sequence of steps. -/
structure Case where
  name : String
  steps : List Step
  skipped : Bool
  failures : List String
  errors : List String
  deriving Repr, Inhabited

namespace Case

/-- A case that was not run. -/
def fresh (name : String) (steps : List Step) (skipped : Bool) : Case :=
  { name, steps, skipped, failures := [], errors := [] }

def records (c : Case) : Nat := c.failures.length + c.errors.length

def isFailed (c : Case) : Bool := 0 < c.records

end Case

/-- A named collection of cases from one file. -/
structure Suite where
  name : String
  package : String
  cases : List Case
  total : Nat
  failures : Nat
  errors : Nat
  skipped : Nat
  deriving Repr, Inhabited

namespace Suite

/-- The sum of a number over cases. -/
def countOver (count : Case → Nat) : List Case → Nat
  | [] => 0
  | c :: rest => count c + countOver count rest

/-- A suite as a file describes it. -/
def fresh (name : String) (cases : List Case) : Suite :=
  { name, package := "", cases, total := 0, failures := 0, errors := 0, skipped := 0 }

/-- Stamps the path of the file and counts cases and skip marks. -/
def prepare (s : Suite) (package : String) : Suite :=
  { s with
    package
    name := s!"{s.name} [{package}]"
    total := s.cases.length
    skipped := s.cases.countP (·.skipped) }

def stepCount (s : Suite) : Nat := countOver (·.steps.length) s.cases

def failedCases (s : Suite) : Nat := s.cases.countP (·.isFailed)

/-- No failure and no error was counted. -/
def passed (s : Suite) : Bool := s.failures == 0 && s.errors == 0

/-- One line about a suite. -/
def display (s : Suite) : String :=
  s!"{s.name} ({s.total} cases, {s.failures} failures, {s.errors} errors, {s.skipped} skipped)"

/-- Counts the records of the cases. -/
def countRecords (s : Suite) : Suite :=
  { s with
    failures := countOver (·.failures.length) s.cases
    errors := countOver (·.errors.length) s.cases
    skipped := s.cases.countP (·.skipped) }

end Suite
end TestBench
