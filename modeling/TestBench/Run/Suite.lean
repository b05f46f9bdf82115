import TestBench.Run.Step
import TestBench.Totals
import TestBench.Path
/-
  Running cases and suites.

  1. The steps of a case run one after another.  The first step that cannot be resolved, or that
     leaves a record, ends the case; a step is resolved only when its turn comes.
  2. The cases of a suite run in order, skipped ones apart; then the suite's counters are taken from
     its cases.
-/
namespace TestBench

variable {ω : Type}

/-- What a run needs besides its suites. -/
structure Context (ω : Type) where
  aliases : Aliases
  registry : Registry ω
  settings : Settings

/-- Adds records to a case. -/
def Case.addRecords (c : Case) (v : Verdict) : Case :=
  { c with errors := c.errors ++ v.errors, failures := c.failures ++ v.failures }

/-- Runs steps until one ends the case. -/
def runSteps (ctx : Context ω) (call : Call) : List Step → Case → Bench ω → Case × Bench ω
  | [], c, b => (c, b)
  | step :: rest, c, b =>
    match resolve ctx.registry ctx.settings.defaultTimeoutSecs step with
    | .error e => (c.addRecords ⟨[e.message], []⟩, b)
    | .ok r =>
      let (o, b) := runStep ctx.settings r step call b
      let c := c.addRecords o.verdict
      if o.isOk then runSteps ctx call rest c b else (c, b)

/-- Runs a case of a suite. -/
def runCase (ctx : Context ω) (suite workdir : String) (c : Case) (b : Bench ω) : Case × Bench ω :=
  runSteps ctx { aliases := ctx.aliases, suite, case := c.name, workdir } c.steps c b

/-- The directory of a suite file, from which relative paths of its steps start. -/
def suiteDirectory (package : String) : String :=
  match Path.parent? package with
  | some dir => if dir.isEmpty then "." else dir
  | none => "."

/-- Runs the cases that are not skipped. -/
def runCases (ctx : Context ω) (suite workdir : String) : List Case → Bench ω →
    List Case × Bench ω
  | [], b => ([], b)
  | c :: rest, b =>
    let (c, b) := if c.skipped then (c, b) else runCase ctx suite workdir c b
    let (rest, b) := runCases ctx suite workdir rest b
    (c :: rest, b)

/-- Runs a suite. -/
def runSuite (ctx : Context ω) (s : Suite) (b : Bench ω) : Suite × Bench ω :=
  let (cases, b) := runCases ctx s.name (suiteDirectory s.package) s.cases b
  ({ s with cases }.countRecords, b)

end TestBench
