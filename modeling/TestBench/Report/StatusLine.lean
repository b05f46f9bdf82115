import TestBench.Suite
import TestBench.Levels
import TestBench.Elapsed
import TestBench.Text.Column
/-
  The line that is shown when a suite is finished.
-/
namespace TestBench

/-- The width of the column that holds the path of a suite. -/
def packageWidth : Nat := 47

/-- The outcome and the path of a suite, and at low detail the time it took. -/
def Suite.statusLine (s : Suite) (elapsedNanos : Nat) (details : Details) : String :=
  (if s.passed then "✅ " else "❌ ") ++ Text.padRight packageWidth s.package
    ++ (if details = .low then elapsedText elapsedNanos else "")

end TestBench
