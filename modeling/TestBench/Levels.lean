import TestBench.Path
import TestBench.Text.Lowercase
/-
  The named levels of a run: how much is shown, how much is logged, and how a report is written.

  Names are compared in lower case.  The format of a report file follows from its extension, in which
  letter case matters.
-/
namespace TestBench

open TestBench.Text

/-- How much a run shows. -/
inductive Details where
  | low
  | medium
  | high
  deriving Repr, DecidableEq, Inhabited

namespace Details

def name : Details → String
  | low => "low"
  | medium => "medium"
  | high => "high"

def ofName? (s : String) : Option Details :=
  match lowercase s with
  | "low" => some low
  | "medium" => some medium
  | "high" => some high
  | _ => none

def standard : Details := medium

/-- Whether finished suites are shown by progress bars rather than by lines. -/
def showsProgress (d : Details) : Bool := d != low

end Details

/-- How much a run logs. -/
inductive LogLevel where
  | trace
  | debug
  | info
  | warn
  | error
  deriving Repr, DecidableEq, Inhabited

namespace LogLevel

def ofName? (s : String) : Option LogLevel :=
  match lowercase s with
  | "trace" => some trace
  | "debug" => some debug
  | "info" => some info
  | "warn" => some warn
  | "warning" => some warn
  | "error" => some error
  | _ => none

end LogLevel

/-- How a report is written. -/
inductive ReportFormat where
  | table
  | json
  | jsonPretty
  | yaml
  | csv
  deriving Repr, DecidableEq, Inhabited

namespace ReportFormat

def ofName? (s : String) : Option ReportFormat :=
  match lowercase s with
  | "table" => some table
  | "json" => some json
  | "json-pretty" => some jsonPretty
  | "jsonpretty" => some jsonPretty
  | "yaml" => some yaml
  | "yml" => some yaml
  | "csv" => some csv
  | _ => none

/-- The format that the extension of a file asks for, a table by default. -/
def ofPath (path : String) : ReportFormat :=
  match Path.extension? path with
  | some "json" => jsonPretty
  | some "yml" => yaml
  | some "yaml" => yaml
  | some "csv" => csv
  | _ => table

end ReportFormat
end TestBench
