import TestBench.Suite
/-
  The totals of a run.

  Recording a suite puts each of its cases into one of three counts: skipped, failed, or passed.
  What is left of the suite's own total after the other two is passed, and never less than nothing.
-/
namespace TestBench

open TestBench.Decimal

/-- The suites of a run and their cases by outcome. -/
structure Totals where
  suites : List Suite
  ok : Nat
  ko : Nat
  skipped : Nat
  total : Nat
  deriving Repr, Inhabited

namespace Totals

def empty : Totals := { suites := [], ok := 0, ko := 0, skipped := 0, total := 0 }

/-- Adds a finished suite. -/
def record (t : Totals) (s : Suite) : Totals :=
  let ko := t.ko + s.failedCases
  let skipped := t.skipped + s.skipped
  let ok := t.ok + (s.total - (s.failedCases + s.skipped))
  { suites := t.suites ++ [s], ok, ko, skipped, total := ok + ko + skipped }

def isOk (t : Totals) : Bool := t.ko == 0

/-- The share of passed cases among those that ran, in percent; nothing ran gives zero.  The quotient
    is rounded before it is scaled. -/
def passRate (t : Totals) : Binary64 :=
  let ran := t.ok + t.ko
  if ran = 0 then Binary64.zero false
  else ((Binary64.ofNat t.ok).div (Binary64.ofNat ran)).mul (Binary64.ofNat 100)

/-- One line about a run. -/
def display (t : Totals) : String :=
  s!"Total: {t.total} | OK: {t.ok} | KO: {t.ko} | Skipped: {t.skipped}"

/-- The totals with the suites in the order of their packages. -/
def sortByPackage (t : Totals) : Totals :=
  { t with suites := t.suites.mergeSort fun a b => a.package ≤ b.package }

end Totals
end TestBench
