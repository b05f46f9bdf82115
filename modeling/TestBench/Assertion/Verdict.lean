import TestBench.Assertion.Expression
/-
  The verdict of a list of assertions on what was observed.

  An expression that is no assertion gives an error; an assertion that does not hold gives a
  failure; one that holds gives nothing.  Both lists keep the order of the expressions.
-/
namespace TestBench

/-- What one expression contributes. -/
inductive Judgement where
  | satisfied
  | invalid (error : AssertionError)
  | violated (expression path : String) (mismatch : Mismatch)
  deriving Repr, DecidableEq, Inhabited

/-- The errors and failures of one attempt. -/
structure Verdict where
  errors : List String
  failures : List String
  deriving Repr, DecidableEq, Inhabited

namespace Verdict

def clean : Verdict := ⟨[], []⟩

/-- Neither an error nor a failure. -/
def isOk (v : Verdict) : Bool := v.errors.isEmpty && v.failures.isEmpty

def append (v w : Verdict) : Verdict := ⟨v.errors ++ w.errors, v.failures ++ w.failures⟩

instance : Append Verdict := ⟨append⟩

@[simp] theorem append_errors (v w : Verdict) : (v ++ w).errors = v.errors ++ w.errors := rfl
@[simp] theorem append_failures (v w : Verdict) : (v ++ w).failures = v.failures ++ w.failures := rfl

theorem append_assoc (u v w : Verdict) : u ++ v ++ w = u ++ (v ++ w) := by
  show append (append u v) w = append u (append v w)
  simp [append]

end Verdict

/-- Judges one expression. -/
def judge (observed : Observed) (expression : String) : Judgement :=
  match Assertion.parse expression with
  | .error e => .invalid e
  | .ok a =>
    match a.predicate.check (observed.get? a.path) a.expected with
    | .ok () => .satisfied
    | .error m => .violated expression a.path m

/-- The texts that a judgement leaves. -/
def Judgement.verdict : Judgement → Verdict
  | satisfied => Verdict.clean
  | invalid e => ⟨[e.message], []⟩
  | violated expression path m =>
    ⟨[], [s!"Assertion \"{expression}\" failed. {path}: {m.message}"]⟩

/-- The expressions that count: the defaults if there are any to fall back on and none is
    declared, else the declared ones. -/
def effective (declared : List String) (defaults : Option (List String)) : List String :=
  match defaults with
  | some ds => if declared.isEmpty then ds else declared
  | none => declared

/-- Judges a list of expressions one after another. -/
def judgeAll (observed : Observed) : List String → Verdict
  | [] => Verdict.clean
  | e :: rest => (judge observed e).verdict ++ judgeAll observed rest

/-- The verdict on what was observed. -/
def evaluate (observed : Observed) (declared : List String) (defaults : Option (List String)) :
    Verdict :=
  judgeAll observed (effective declared defaults)

end TestBench
