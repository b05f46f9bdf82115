import TestBench.Executor.Machine
import TestBench.Shell.Run
/-
  The executor that runs shell scripts.

  1. A script that is blank is no command.  The shell starts in the directory of the suite, reads
     nothing, and what it writes is kept without line breaks at the end.
  2. The code is the status of the shell, or -1 if a signal ended it.
  3. A call that is told to stop before the script ends stops the script where it is.
-/
namespace TestBench

open TestBench.Shell (Octets Finished runScript)
open TestBench.Text

/-- The parameters of a step that runs a script. -/
structure Exec where
  script : String
  deriving Repr, DecidableEq, Inhabited

namespace Exec

def name : String := "exec"

def decode (step : Step) : Except Refusal Exec :=
  step.parameters [{ name := "script", read := fun v _ => v.asText.map Exec.mk }] ⟨""⟩

/-- The code of a script that a signal ended. -/
def signalCode : Int := -1

/-- What was written, without line breaks at the end. -/
def outputText (s : Octets) : String :=
  String.ofList ((Octets.toString s).toList.reverse.dropWhile (· = '\n')).reverse

def result (f : Finished) (ms : Nat) : Json :=
  .object ([("systemout", .text (outputText f.output)), ("systemerr", .text (outputText f.errors)),
    ("code", .number (.int ((f.status?.map Int.ofNat).getD signalCode)))] ++ timeFields ms)

/-- Runs a script in a directory. -/
def run (script : String) (call : Call) (machine : Machine) : Course × Machine :=
  match machine.files.enterDirectory call.workdir with
  | .error e => (.prompt (.error (.io e.message)), machine)
  | .ok files =>
    let f := runScript files machine.environment call.stopAtMs (Octets.ofString script)
    let machine := { machine with files := { machine.files with root := f.files.root } }
    let ms := max shortestCallMs f.ms
    if f.isStopped || call.stopAtMs.any (· < ms) then (.awaitsCancel, machine)
    else (.ends ms (.ok (Observed.ofJson (result f ms))), machine)

def executor (p : Exec) : Executor Machine where
  defaults := some ["result.code ShouldEqual 0"]
  start := fun call machine =>
    if (trim p.script.toList).isEmpty then
      (.prompt (.error (.invocation "Invalid command")), machine)
    else
      let script := call.aliases.expand p.script
      if script.toList.contains '\x00' then
        (.prompt (.error (.io "nul byte found in provided data")), machine)
      else run script call machine

end Exec
end TestBench
