import TestBench.CommandLine.Arguments
import TestBench.CommandLine.Help
import TestBench.Config.Document
import TestBench.Config.Environment
import TestBench.Executor.Builtin
import TestBench.Report.StatusLine
import TestBench.Report.Text
import TestBench.Run.All
import TestBench.Schema
/-
  The program: from its arguments to its output and its code.

  1. The configuration comes from the file that an argument or else a variable names, or else from
     the standard places.  Variables change it, and arguments change it after them; it has to be
     valid before and after the arguments of a run (`configuration`, `RunArguments.apply`).
  2. A run prints a line for each suite as it finishes, unless progress is shown in another way, and
     then the report; the code says whether a case failed.
  3. Whatever goes wrong ends the program with one line about it, but what was printed before stays.

  Left out is what leaves no trace in the output, the files or the code: bars that show progress, and the
  lines of the log.  The machine is one on which everything in the tree may be read and written, nobody
  answers requests, and time passes only where something is waited for.
-/
namespace TestBench

open TestBench.CommandLine

/-! ## The end of the program -/

/-- What is said at the end. -/
inductive Complaint where
  | nothing
  | usage (fault : UsageError)
  | error (message : String)
  deriving Repr, DecidableEq, Inhabited

/-- What the program leaves. -/
structure Exit where
  code : Nat
  output : String
  complaint : Complaint
  machine : Machine
  deriving Inhabited

namespace Exit

def codeOk : Nat := 0

/-- The code of a program that could not do what it was to do. -/
def codeError : Nat := 1

/-- The code of a run in which a case failed. -/
def codeFailed : Nat := 2

/-- The code for arguments that are wrong. -/
def codeUsage : Nat := 2

/-- The code of a program that broke off.  It is that of an optimised build that unwinds, in which
    counters go round as well; a build that aborts instead is ended by a signal and leaves no code. -/
def codeBroken : Nat := 101

def done (machine : Machine) (output : String) : Exit := ⟨codeOk, output, .nothing, machine⟩

def failed (machine : Machine) (output message : String) : Exit :=
  ⟨codeError, output, .error message, machine⟩

/-- The end of a program whose arguments ask for help, or are wrong. -/
def ofUsage (machine : Machine) (fault : UsageError) : Exit :=
  match fault with
  | .help (some level) => done machine (level.help ++ "\n")
  | .help none => done machine (helpOfHelp ++ "\n")
  | .version => done machine (versionText ++ "\n")
  | fault => ⟨codeUsage, "", .usage fault, machine⟩

end Exit

/-! ## Configuration -/

/-- The home directory, as the variables name it.  The account is taken to have none of its own, which
    would stand in for a variable that is missing. -/
def Machine.home? (m : Machine) : Option String := m.environment.home? none

/-- The configuration before the arguments of a command are applied. -/
def CommandLine.Arguments.configuration (a : Arguments) (m : Machine) : Except ConfigError Config := do
  let overrides := Overrides.ofVariables m.environment
  let c ← match a.config <|> overrides.configFile with
    | some path => Config.load m.files (Config.expandHome m.home? path)
    | none => Config.loadStandard m.files m.home?
  let c := overrides.apply c
  Config.checked { c with logLevel := a.logLevel.getD c.logLevel }

/-- The configuration with the arguments of a run. -/
def CommandLine.RunArguments.apply (a : RunArguments) (c : Config) : Config :=
  { c with
    parallel := a.parallel.getD c.parallel
    details := a.details.getD c.details
    format := a.format.getD c.format
    defaultTimeoutSecs := a.timeout.getD c.defaultTimeoutSecs
    delayFirstRetry := a.delayFirstRetry || c.delayFirstRetry
    aliases := c.aliases ++ a.aliases }

/-! ## Commands -/

/-- The lines that are printed as suites finish; where progress is shown they are not printed. -/
def statusLines (details : Details) (finished : List FinishedSuite) : String :=
  if details.showsProgress then ""
  else String.join (finished.map fun f =>
    f.suite.statusLine (1000000 * f.elapsedMs) details ++ "\n")

/-- Runs suites, prints the report and writes it to a file if asked to. -/
def runCommand (a : RunArguments) (c : Config) (startedAt : Timestamp) (m : Machine) : Exit :=
  match (a.apply c).checked with
  | .error e => .failed m "" e.message
  | .ok c =>
    let ctx := Context.mk (Aliases.ofEntries c.aliases) Registry.builtin c.settings
    match runAll ctx m.files a.path ⟨m, 0⟩ with
    | .error .gateTooWide => ⟨Exit.codeBroken, "", .nothing, m⟩
    | .error e => .failed m "" e.message
    | .ok all =>
      let m := all.bench.world
      let lines := statusLines c.detailsLevel all.finished
      let run : Run := ⟨all.totals, startedAt, all.bench.elapsedMs⟩
      match run.report c.reportFormat c.detailsLevel true with
      | .error e => .failed m lines e.message
      | .ok report =>
        let output := lines ++ report ++ "\n"
        let written := match a.output with
          | some path => run.writeReport m.files path
          | none => .ok m.files
        match written with
        | .error e => .failed m output e.message
        | .ok files =>
          let code := if all.totals.isOk then Exit.codeOk else Exit.codeFailed
          ⟨code, output, .nothing, { m with files }⟩

/-- The line above and below a list of suites. -/
def rule : String := String.ofList (List.replicate 70 '━')

/-- What is listed of a suite file. -/
def listLine (files : Files) (path : String) : String :=
  let column (path : String) : String := Text.padRight packageWidth path
  let count (n : Nat) : String := Text.padLeft 3 (toString n)
  match loadSuite files path with
  | .ok s =>
    s!"  {column s.package} {count s.total} cases {count s.stepCount} steps {count s.skipped} skipped  "
      ++ s.name
  | .error _ => s!"  {column path} unreadable"

/-- Lists the suites that a path stands for. -/
def listCommand (path : String) (m : Machine) : Exit :=
  match discover m.files path with
  | .error e => .failed m "" (RunError.discovery path e).message
  | .ok paths =>
    let lines := [s!"\nSuites in {path} ({paths.length} file(s))\n", rule]
      ++ paths.map (listLine m.files) ++ [rule ++ "\n"]
    .done m (String.join (lines.map (· ++ "\n")))

/-- Carries out what the arguments ask for. -/
def perform (a : Arguments) (startedAt : Timestamp) (m : Machine) : Exit :=
  match a.configuration m with
  | .error e => .failed m "" e.message
  | .ok c =>
    match a.command with
    | .run r => runCommand r c startedAt m
    | .list path => listCommand path m
    | .schema => .done m (Schema.document.pretty ++ "\n")

/-- The program, from its arguments to its end. -/
def program (arguments : List String) (startedAt : Timestamp) (m : Machine) : Exit :=
  match CommandLine.read arguments with
  | .error fault => .ofUsage m fault
  | .ok a => perform a startedAt m

end TestBench
