import TestBench.Shell.Octets
/-
  Signals by number.
-/
namespace TestBench.Shell

structure Signal where
  number : Nat
  name : String
  /-- What is reported of a command that the signal ended. -/
  text : String
  deriving Repr, DecidableEq, Inhabited

namespace Signal

def all : List Signal :=
  [⟨1, "HUP", "Hangup"⟩, ⟨2, "INT", ""⟩, ⟨3, "QUIT", "Quit"⟩, ⟨4, "ILL", "Illegal instruction"⟩,
    ⟨5, "TRAP", "Trace/breakpoint trap"⟩, ⟨6, "ABRT", "Aborted"⟩, ⟨7, "BUS", "Bus error"⟩,
    ⟨8, "FPE", "Floating point exception"⟩, ⟨9, "KILL", "Killed"⟩, ⟨10, "USR1", "User defined signal 1"⟩,
    ⟨11, "SEGV", "Segmentation fault"⟩, ⟨12, "USR2", "User defined signal 2"⟩, ⟨13, "PIPE", ""⟩,
    ⟨14, "ALRM", "Alarm clock"⟩, ⟨15, "TERM", "Terminated"⟩, ⟨17, "CHLD", ""⟩, ⟨18, "CONT", ""⟩,
    ⟨19, "STOP", ""⟩, ⟨20, "TSTP", ""⟩, ⟨21, "TTIN", ""⟩, ⟨22, "TTOU", ""⟩, ⟨23, "URG", ""⟩,
    ⟨24, "XCPU", "CPU time limit exceeded"⟩, ⟨25, "XFSZ", "File size limit exceeded"⟩,
    ⟨26, "VTALRM", "Virtual timer expired"⟩, ⟨27, "PROF", "Profiling timer expired"⟩, ⟨28, "WINCH", ""⟩,
    ⟨29, "IO", "I/O possible"⟩, ⟨30, "PWR", "Power failure"⟩, ⟨31, "SYS", "Bad system call"⟩]

def ofNumber? (n : Nat) : Option Signal := all.find? (·.number = n)

/-- The signal of a number or of a name. -/
def ofText? (s : Octets) : Option Signal :=
  if !s.isEmpty && s.all Char.isDigit then ofNumber? (s.foldl (fun n c => 10 * n + (c.toNat - 48)) 0)
  else
    let name := String.ofList (s.map Char.toUpper)
    all.find? fun signal => name == signal.name || name == "SIG" ++ signal.name

/-- Whether the signal changes nothing in a process that says nothing about it. -/
def isHarmless (s : Signal) : Bool := [17, 18, 23, 28].contains s.number

/-- Whether the signal holds a process that says nothing about it. -/
def holds (s : Signal) : Bool := [19, 20, 21, 22].contains s.number

end Signal
end TestBench.Shell
