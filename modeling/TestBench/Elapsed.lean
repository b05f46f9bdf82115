import TestBench.Timestamp
/-
  Spans of time as text.

  A span is written in the largest of the units second, millisecond, microsecond and nanosecond of
  which it holds at least one, with as many decimals as it needs.
-/
namespace TestBench

/-- A whole part and a fraction given in units of `1 / 10 ^ places`, without zeros at the end. -/
def decimalText (whole fraction places : Nat) : String :=
  let digits := (Timestamp.padded places fraction).toList.reverse.dropWhile (· = '0')
  if fraction = 0 then toString whole
  else toString whole ++ "." ++ String.ofList digits.reverse

/-- The text of a number of nanoseconds. -/
def elapsedText (nanos : Nat) : String :=
  if 1000000000 ≤ nanos then decimalText (nanos / 1000000000) (nanos % 1000000000) 9 ++ "s"
  else if 1000000 ≤ nanos then decimalText (nanos / 1000000) (nanos % 1000000) 6 ++ "ms"
  else if 1000 ≤ nanos then decimalText (nanos / 1000) (nanos % 1000) 3 ++ "µs"
  else toString nanos ++ "ns"

end TestBench
