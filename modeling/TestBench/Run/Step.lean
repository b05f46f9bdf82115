import TestBench.Executor.Basic
import TestBench.Assertion.Verdict
import TestBench.Levels
/-
  Running a step: attempts under a deadline, until one passes or none is left.

  1. A step is resolved to an executor, a number of retries, a delay between attempts and a deadline
     of at least one second (`resolve`).
  2. An attempt ends with the executor's outcome or at the deadline, whichever comes first.  At the
     deadline the executor is told to stop and its outcome no longer counts (`invoke`).
  3. Records of all attempts are kept, those before a passing one included.  A step that never passes
     and was tried more than once gets a note of the number of attempts (`runStep`).
  4. Time is virtual: a bench holds the world that executors act on and the milliseconds that waiting
     and acting took.
-/
namespace TestBench

/-- The settings of a run. -/
structure Settings where
  /-- How many suites may run at once, at least one. -/
  parallel : Nat
  details : Details
  defaultTimeoutSecs : Nat
  /-- Whether the delay also comes before the first retry, which is immediate otherwise. -/
  delayFirstRetry : Bool
  deriving Repr, DecidableEq, Inhabited

/-- The deadline of steps that set none. -/
def standardTimeoutSecs : Nat := 60

def Settings.standard : Settings :=
  { parallel := 1, details := .standard, defaultTimeoutSecs := standardTimeoutSecs
    delayFirstRetry := false }

/-- A world and the time that has passed. -/
structure Bench (ω : Type) where
  world : ω
  elapsedMs : Nat

def Bench.wait {ω : Type} (b : Bench ω) (ms : Nat) : Bench ω :=
  { b with elapsedMs := b.elapsedMs + ms }

/-- The last millisecond that timers count, from when the runtime starts. -/
def timerLimitMs : Nat := Nat.pow 2 64 - 3

/-- What is waited instead until a moment that the clock cannot show. -/
def thirtyYearsMs : Nat := 1000 * (30 * 365 * 86400)

/-- How long a number of seconds is waited for.  The clock shows moments up to `2 ^ 63` seconds, and a
    later one is taken to be thirty years ahead; any other wait ends with the last millisecond of the
    timers at the latest.  Both limits are those of a wait that begins when the clock does: one that
    begins later meets them earlier, by the time that has passed, which is left out here.  So what is
    proved of times is said of runs that end before the limits. -/
def waitMs (seconds : Nat) : Nat :=
  if seconds < Nat.pow 2 63 then min (1000 * seconds) timerLimitMs else thirtyYearsMs

/-- A step that has found its executor. -/
structure Resolved (ω : Type) where
  executor : Executor ω
  retry : Nat
  delaySecs : Nat
  timeoutSecs : Nat

variable {ω : Type}

/-- Finds the executor of a step and its numbers. -/
def resolve (registry : Registry ω) (defaultTimeout : Nat) (step : Step) :
    Except ExecutorError (Resolved ω) :=
  (registry.instantiate step).map fun executor =>
    { executor
      retry := step.retry?.getD 0
      delaySecs := step.delay?.getD 0
      timeoutSecs := max 1 (step.timeout?.getD defaultTimeout) }

/-! ## One attempt -/

/-- One attempt under the deadline. -/
def invoke (r : Resolved ω) (call : Call) (b : Bench ω) : Outcome × Bench ω :=
  let deadline := waitMs r.timeoutSecs
  let late (world : ω) : Outcome × Bench ω :=
    (.error (.timeout r.timeoutSecs), { world, elapsedMs := b.elapsedMs + deadline })
  match r.executor.start { call with stopAtMs := some deadline } b.world with
  | (.ends ms outcome, world) =>
    if ms ≤ deadline then (outcome, { world, elapsedMs := b.elapsedMs + ms }) else late world
  | (.hangs, world) => late world
  | (.awaitsCancel, world) => late (r.executor.stopped world)

/-- What an attempt leaves: the error of an invocation that failed, or the verdict on its result. -/
def assess (declared : List String) (defaults : Option (List String)) : Outcome → Verdict
  | .error e => ⟨[e.message], []⟩
  | .ok observed => evaluate observed declared defaults

/-! ## All attempts -/

/-- The records of a step, across its attempts. -/
structure StepOutcome where
  verdict : Verdict
  attempts : UInt64
  passed : Bool
  deriving Repr, DecidableEq, Inhabited

namespace StepOutcome

def start : StepOutcome := ⟨Verdict.clean, 0, false⟩

/-- No attempt left a record. -/
def isOk (o : StepOutcome) : Bool := o.verdict.isOk

/-- Counts an attempt and adds what it left. -/
def add (o : StepOutcome) (v : Verdict) : StepOutcome :=
  { verdict := o.verdict ++ v, attempts := o.attempts + 1, passed := v.isOk }

def attemptNote (attempts : UInt64) : String := s!"It's a failure after {attempts} attempt(s)"

/-- Adds the note of the number of attempts to a step that never passed. -/
def conclude (o : StepOutcome) : StepOutcome :=
  if !o.passed && 1 < o.attempts then
    { o with verdict := o.verdict ++ ⟨[], [attemptNote o.attempts]⟩ }
  else o

end StepOutcome

/-- How long to wait before an attempt, counted from zero. -/
def waitBefore (settings : Settings) (delaySecs attempt : Nat) : Nat :=
  if 1 < attempt ∨ (attempt = 1 ∧ settings.delayFirstRetry) then waitMs delaySecs else 0

/-- The attempts from one on, with `left` retries after it. -/
def attemptsFrom (settings : Settings) (r : Resolved ω) (declared : List String) (call : Call) :
    Nat → Nat → StepOutcome → Bench ω → StepOutcome × Bench ω
  | left, attempt, o, b =>
    let (outcome, b) := invoke r call (b.wait (waitBefore settings r.delaySecs attempt))
    let o := o.add (assess declared r.executor.defaults outcome)
    if o.passed then (o, b)
    else match left with
      | 0 => (o, b)
      | left + 1 => attemptsFrom settings r declared call left (attempt + 1) o b

/-- Runs a resolved step. -/
def runStep (settings : Settings) (r : Resolved ω) (step : Step) (call : Call) (b : Bench ω) :
    StepOutcome × Bench ω :=
  let (o, b) := attemptsFrom settings r step.assertions call r.retry 0 StepOutcome.start b
  (o.conclude, b)

end TestBench
