import TestBench.Report.Table
import TestBench.Report.Csv
import TestBench.Yaml.Printer
import TestBench.Files.Lookup
/-
  The report in each of its formats.

  The tabular formats always exist.  The JSON formats need a JSON form of the run, which a step may
  deny; then there is no report.
-/
namespace TestBench

/-- Why a report cannot be made. -/
inductive ReportError where
  | noJson
  | notWritten (path : String)
  deriving Repr, DecidableEq, Inhabited

def ReportError.message : ReportError → String
  | noJson => "Failed to render JSON"
  | notWritten path => s!"Failed to write report: {path}"

def Run.json (r : Run) (print : Json → String) : Except ReportError String :=
  match r.document.toJson? with
  | some j => .ok (print j)
  | none => .error .noJson

def Run.yaml (r : Run) : String :=
  match r.document with
  | .mapping entries => Yaml.print entries
  | _ => ""

/-- The report in a format.  Only JSON has values that cannot be written, by their keys; of YAML it is
    taken that all can (`Yaml.print`). -/
def Run.report (r : Run) (format : ReportFormat) (details : Details) (color : Bool) :
    Except ReportError String :=
  match format with
  | .table => .ok (r.table details color)
  | .json => r.json Json.compact
  | .jsonPretty => r.json Json.pretty
  | .yaml => .ok r.yaml
  | .csv => .ok r.csv

/-- The report as it is written to a file: with full detail, without colour, in the format that the
    path asks for. -/
def Run.fileReport (r : Run) (path : String) : Except ReportError String :=
  r.report (.ofPath path) .high false

/-- Writes the report to a file. -/
def Run.writeReport (r : Run) (files : Files) (path : String) : Except ReportError Files :=
  match r.fileReport path with
  | .error e => .error e
  | .ok text =>
    (files.write path (Text.Utf8.encode text.toList)).mapError fun _ => .notWritten path

end TestBench
