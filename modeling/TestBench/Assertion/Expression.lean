import TestBench.Assertion.Predicate
/-
  Assertion expressions: a path, the name of a predicate, and an expected text.

  The words of an expression are separated by blanks.  The first is the path, the second names the
  predicate, and all others joined by single blanks are the expected text.
-/
namespace TestBench

open TestBench.Text

structure Assertion where
  path : String
  predicate : Predicate
  expected : String
  deriving Repr, DecidableEq, Inhabited

/-- Why a text is no assertion. -/
inductive AssertionError where
  | malformed (expression : String)
  | unknownPredicate (predicate expression : String)
  | missingExpected (expression : String)
  deriving Repr, DecidableEq, Inhabited

def AssertionError.message : AssertionError → String
  | malformed e => s!"Invalid assertion '{e}': expected '<path> <Predicate> [expected]'"
  | unknownPredicate p e => s!"Unknown assertion predicate '{p}' in '{e}'"
  | missingExpected e => s!"Assertion '{e}' is missing its expected value"

namespace Assertion

/-- The assertion whose words are given; `expression` is what messages show. -/
def ofWords (expression : String) : List String → Except AssertionError Assertion
  | path :: name :: rest =>
    match Predicate.ofName? name with
    | none => .error (.unknownPredicate name expression)
    | some predicate =>
      let expected := " ".intercalate rest
      if predicate.takesExpected && expected.isEmpty then .error (.missingExpected expression)
      else .ok { path, predicate, expected }
  | _ => .error (.malformed expression)

/-- Reads an expression. -/
def parse (expression : String) : Except AssertionError Assertion :=
  ofWords expression ((words expression.toList).map String.ofList)

end Assertion
end TestBench
