import TestBench.Discovery
import TestBench.Report.Document
import TestBench.Run.Suite
/-
  A whole run: all suites that a path stands for.

  1. Files that cannot be read or decoded are left out; all files are read before any suite runs.
  2. Each finished suite is recorded in the totals with the time it took.  At the end the suites stand
     in the order of their packages.
  3. Suites run behind a gate that lets in so many at once, and the gate has a limit of its own.
-/
namespace TestBench

/-- The most suites that the gate can be told to let in. -/
def gateLimit : Nat := (Nat.pow 2 64 - 1) / 8

/-- Why a run does not take place. -/
inductive RunError where
  | discovery (path : String) (cause : DiscoveryError)
  | gateTooWide
  deriving Repr, Inhabited

namespace RunError

/-- What went wrong, without its cause. -/
def message : RunError → String
  | discovery path _ => s!"Failed to discover suites in {path}"
  | gateTooWide => "too many suites at once"

/-- What went wrong and all its causes. -/
def chain : RunError → List String
  | discovery path e => s!"Failed to discover suites in {path}" :: [e.message, e.cause]
  | gateTooWide => [gateTooWide.message]

end RunError

/-- The suites in the files that can be loaded. -/
def loadAll (files : Files) (paths : List String) : List Suite :=
  paths.filterMap fun path => (loadSuite files path).toOption

/-- A suite that has run, and the time it took. -/
structure FinishedSuite where
  suite : Suite
  elapsedMs : Nat
  deriving Inhabited

variable {ω : Type}

/-- Runs suites one after another. -/
def runEach (ctx : Context ω) : List Suite → Bench ω → List FinishedSuite × Bench ω
  | [], b => ([], b)
  | s :: rest, b =>
    let (s, after) := runSuite ctx s b
    let (rest, last) := runEach ctx rest after
    (⟨s, after.elapsedMs - b.elapsedMs⟩ :: rest, last)

/-- The totals of finished suites, recorded in the order in which they finished. -/
def collect (finished : List FinishedSuite) : Totals :=
  (finished.map (·.suite)).foldl Totals.record Totals.empty

/-- What a run leaves: its totals, and its suites as they finished. -/
structure WholeRun (ω : Type) where
  totals : Totals
  finished : List FinishedSuite
  bench : Bench ω

/-- Runs all suites that a path stands for, in the files that the world begins with. -/
def runAll (ctx : Context ω) (files : Files) (path : String) (b : Bench ω) :
    Except RunError (WholeRun ω) := do
  let paths ← (discover files path).mapError (RunError.discovery path)
  let suites := loadAll files paths
  if gateLimit < ctx.settings.parallel then throw .gateTooWide
  let (finished, bench) := runEach ctx suites b
  return { totals := (collect finished).sortByPackage, finished, bench }

end TestBench
