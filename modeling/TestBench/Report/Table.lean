import TestBench.Report.Document
import TestBench.Report.StatusLine
/-
  The report as a table for a terminal.

  Each suite has a line with its outcome and counters; at high detail the failed cases follow with
  their records.  The totals close the table.  Outcomes may be coloured.
-/
namespace TestBench

open TestBench.Decimal

/-- A finite number that is not negative, rounded to one decimal; a tie goes to the even digit. -/
def oneDecimal (x : Binary64) : String :=
  match x.ratio? with
  | some (_, num, den) =>
    let tenths := Binary64.roundHalfEven (10 * num) den
    s!"{tenths / 10}.{tenths % 10}"
  | none => "NaN"

namespace Table

/-- Text in a colour of the terminal. -/
def paint (color : Bool) (code text : String) : String :=
  if color then s!"\x1b[{code}m{text}\x1b[0m" else text

def green : String := "32"
def red : String := "31"

def rule : String := String.ofList (List.replicate 70 '━') ++ "\n"

def number (n : Nat) : String := Text.padLeft 3 (toString n)

/-- The line of a suite. -/
def suiteLine (color : Bool) (s : Suite) : String :=
  let mark := if s.passed then paint color green "✓" else paint color red "✗"
  s!"{mark} {Text.padRight packageWidth s.package} {number s.total} cases | "
    ++ s!"{number s.failures} failures | {number s.errors} errors | {number s.skipped} skipped\n"

/-- The records of a failed case. -/
def caseLines (c : Case) : String :=
  s!"    ✗ {c.name}\n"
    ++ String.join (c.errors.map fun e => s!"        error: {e}\n")
    ++ String.join (c.failures.map fun f => s!"        failure: {f}\n")

def suiteBlock (details : Details) (color : Bool) (s : Suite) : String :=
  suiteLine color s ++
    (if details = .high then String.join ((s.cases.filter (·.isFailed)).map caseLines) else "")

end Table

open Table in
/-- The report as a table. -/
def Run.table (r : Run) (details : Details) (color : Bool) : String :=
  let t := r.totals
  let ko := if 0 < t.ko then paint color red (toString t.ko) else toString t.ko
  "\n" ++ rule ++ String.join (t.suites.map (suiteBlock details color)) ++ rule
    ++ s!"Total: {t.total} | OK: {paint color green (toString t.ok)} | KO: {ko} | Skipped: {t.skipped}\n"
    ++ s!"Pass Rate: {oneDecimal t.passRate}% | Duration: {r.durationMs}ms\n"

end TestBench
