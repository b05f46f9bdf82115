import TestBench.Executor.Basic
/-
  Executors that play a script.

  A script is a list of turns; a call plays the turn of its number, and the last turn repeats.  The
  stage keeps a log of the calls and counts them by executor, so that one script serves a whole run.
-/
namespace TestBench

/-- What a turn does once its time has passed. -/
inductive Action where
  | hang
  | awaitCancel
  | fail (text : String)
  | echo (text : String)
  | give (value : Json)
  deriving Repr, Inhabited

structure Turn where
  afterMs : Nat
  action : Action
  deriving Repr, Inhabited

structure Script where
  turns : List Turn
  defaults : Option (List String)
  deriving Repr, Inhabited

/-- One call of a scripted executor. -/
structure LoggedCall where
  name : String
  number : Nat
  suite : String
  case : String
  workdir : String
  deriving Repr, DecidableEq, Inhabited

/-- The calls so far, last one first, and how many of them saw the signal to stop. -/
structure Stage where
  calls : List LoggedCall
  counts : List (String × Nat)
  cancelled : Nat
  deriving Repr, Inhabited

namespace Stage

def empty : Stage := ⟨[], [], 0⟩

def count (s : Stage) (name : String) : Nat := (Json.lookup name s.counts).getD 0

/-- Logs a call and gives its number, starting from one. -/
def enter (s : Stage) (name : String) (call : Call) : Nat × Stage :=
  let n := s.count name + 1
  let logged := { name, number := n, suite := call.suite, case := call.case, workdir := call.workdir }
  (n, { s with calls := logged :: s.calls, counts := Json.insertField name n s.counts })

/-- Forgets the calls but not their numbers. -/
def clearLog (s : Stage) : Stage := { s with calls := [], cancelled := 0 }

end Stage

namespace Script

/-- The turn of a call, by its number. -/
def turn (script : Script) (number : Nat) : Turn :=
  match script.turns[number - 1]? with
  | some t => t
  | none => script.turns.getLastD ⟨0, .give .null⟩

def course (t : Turn) (call : Call) : Course :=
  match t.action with
  | .hang => .hangs
  | .awaitCancel => .awaitsCancel
  | .fail text => .ends t.afterMs (.error (.invocation text))
  | .echo text =>
    .ends t.afterMs (.ok (Observed.ofJson (.object [("text", .text (call.aliases.expand text))])))
  | .give value => .ends t.afterMs (.ok (Observed.ofJson value))

/-- The executor of a name that plays a script. -/
def executor (script : Script) (name : String) : Executor Stage where
  defaults := script.defaults
  start := fun call stage =>
    let (n, stage) := stage.enter name call
    (course (script.turn n) call, stage)
  stopped := fun stage => { stage with cancelled := stage.cancelled + 1 }

end Script
end TestBench
