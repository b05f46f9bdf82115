import TestBench.Aliases
import TestBench.Observed
import TestBench.Step
/-
  Executors: what a step is carried out by.

  1. An executor acts on a world of type `ω`.  Starting a call changes the world and fixes how the
     call will end (`Course`): after some time with an outcome, never, or once it is told to stop.
  2. A registry maps the types of steps to factories, which decode a step into an executor.  A factory
     is asked anew for every step.
-/
namespace TestBench

/-- Why a step has no result. -/
inductive ExecutorError where
  | unknownType (name : String)
  | decode (executor text : String)
  | invocation (text : String)
  | timeout (seconds : Nat)
  | cancelled
  | io (text : String)
  | http (text : String)
  | result (text : String)
  deriving Repr, DecidableEq, Inhabited

def ExecutorError.message : ExecutorError → String
  | unknownType name => s!"Type '{name}' is not implemented"
  | decode executor text => s!"Invalid '{executor}' step: {text}"
  | invocation text => text
  | timeout seconds => s!"Timeout after {seconds} second(s)"
  | cancelled => "Step cancelled"
  | io text => s!"I/O error: {text}"
  | http text => s!"HTTP error: {text}"
  | result text => s!"Cannot flatten result: {text}"

/-- What an executor is told about the call. -/
structure Call where
  aliases : Aliases
  suite : String
  case : String
  /-- The directory that relative paths of the step start from. -/
  workdir : String
  /-- When the signal to stop comes, in milliseconds from the start of the call, if it ever does. -/
  stopAtMs : Option Nat := none

abbrev Outcome := Except ExecutorError Observed

/-- How a call ends if nobody waits for less. -/
inductive Course where
  | ends (afterMs : Nat) (outcome : Outcome)
  | hangs
  | awaitsCancel

/-- An executor on a world. -/
structure Executor (ω : Type) where
  /-- The assertions of a step that declares none, if the executor has any to offer. -/
  defaults : Option (List String)
  start : Call → ω → Course × ω
  /-- What changes when a call that waits for it sees the signal to stop. -/
  stopped : ω → ω := id

abbrev Factory (ω : Type) := Step → Except ExecutorError (Executor ω)

/-- Factories by type, sorted by name. -/
structure Registry (ω : Type) where
  factories : List (String × Factory ω)

namespace Registry

variable {ω : Type}

def empty : Registry ω := ⟨[]⟩

def register (r : Registry ω) (name : String) (factory : Factory ω) : Registry ω :=
  ⟨Json.insertField name factory r.factories⟩

def names (r : Registry ω) : List String := r.factories.map (·.1)

/-- The executor that a step asks for. -/
def instantiate (r : Registry ω) (step : Step) : Except ExecutorError (Executor ω) :=
  match Json.lookup step.typeName r.factories with
  | some factory => factory step
  | none => .error (.unknownType step.typeName)

end Registry
end TestBench
