import TestBench.Report.Document
/-
  The report as comma-separated values.

  A field that holds a comma, a quote or a line break stands between quotes, and a quote inside it is
  written twice.  Each suite has one record; without a suite there is no header either.
-/
namespace TestBench

namespace Csv

/-- Whether a field has to stand between quotes. -/
def needsQuotes (field : List Char) : Bool :=
  field.any fun c => c = ',' || c = '"' || c = '\n' || c = '\r'

/-- The characters of a field with every quote written twice. -/
def doubleQuotes : List Char → List Char
  | [] => []
  | c :: rest => if c = '"' then '"' :: '"' :: doubleQuotes rest else c :: doubleQuotes rest

def field (s : List Char) : List Char :=
  if needsQuotes s then '"' :: doubleQuotes s ++ ['"'] else s

/-- The fields of a record with commas between them. -/
def fields : List (List Char) → List Char
  | [] => []
  | [f] => field f
  | f :: rest => field f ++ ',' :: fields rest

/-- A record and the line feed that ends it. -/
def record (fs : List String) : List Char := fields (fs.map String.toList) ++ ['\n']

end Csv

/-- The names of the columns. -/
def csvHeader : List String :=
  ["suite", "package", "total", "failures", "errors", "skipped", "status"]

/-- The fields of a suite. -/
def Suite.csvRow (s : Suite) : List String :=
  [s.name, s.package, toString s.total, toString s.failures, toString s.errors, toString s.skipped,
    if s.passed then "ok" else "ko"]

/-- The report as comma-separated values. -/
def Run.csv (r : Run) : String :=
  match r.totals.suites with
  | [] => ""
  | suites =>
    String.ofList ((csvHeader :: suites.map Suite.csvRow).flatMap Csv.record)

end TestBench
