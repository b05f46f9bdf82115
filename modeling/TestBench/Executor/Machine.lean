import TestBench.Config.Environment
import TestBench.Decode.Parameters
import TestBench.Elapsed
import TestBench.Executor.Basic
import TestBench.Files.Lookup
/-
  The world of the executors that run commands and use files.

  A machine has files and an environment.  Calls take whole milliseconds, at least one, and say in
  their results how long they took.
-/
namespace TestBench

open TestBench.Decimal

structure Machine where
  files : Files
  environment : Variables
  deriving Repr, Inhabited

/-- The shortest time that a call takes. -/
def shortestCallMs : Nat := 1

/-- How long a call took, as parts of its result. -/
def timeFields (ms : Nat) : List (String × Json) :=
  [("timehuman", .text (elapsedText (1000000 * ms))),
    ("timeseconds", .number (.float (Binary64.ofRatio false ms 1000)))]

/-- The course of a call that takes the shortest time. -/
def Course.prompt (outcome : Outcome) : Course := .ends shortestCallMs outcome

/-- An executor that acts on a part of a larger world. -/
def Executor.on {ω υ : Type} (get : ω → υ) (set : υ → ω → ω) (e : Executor υ) : Executor ω where
  defaults := e.defaults
  start := fun call world =>
    let (course, part) := e.start call (get world)
    (course, set part world)
  stopped := fun world => set (e.stopped (get world)) world

/-- The factory of an executor that is decoded from the parameters of a step. -/
def decoded {ω α : Type} (name : String) (decode : Step → Except Refusal α)
    (executor : α → Executor ω) : Factory ω := fun step =>
  match decode step with
  | .ok parameters => .ok (executor parameters)
  | .error e => .error (.decode name e.message)

end TestBench
