import TestBench.Executor.Exec
import TestBench.Executor.ReadFile
import TestBench.Executor.Request
/-
  The executors that are always there: scripts, requests and files.
-/
namespace TestBench

namespace Registry

/-- The executors of a machine that is a part of a larger world. -/
def builtinOn {ω : Type} (get : ω → Machine) (set : Machine → ω → ω) : Registry ω :=
  Registry.empty
    |>.register Exec.name (decoded Exec.name Exec.decode fun p => p.executor.on get set)
    |>.register Request.name (decoded Request.name Request.decode Request.executor)
    |>.register ReadFile.name (decoded ReadFile.name ReadFile.decode fun p => p.executor.on get set)

/-- The executors of a machine. -/
def builtin : Registry Machine := builtinOn id fun machine _ => machine

end Registry
end TestBench
