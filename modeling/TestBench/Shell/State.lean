import TestBench.Files.Lookup
import TestBench.Shell.Reader
/-
  The state of a shell.

  1. What commands read and write are streams: a text that is read, texts that were written, or a place
     in a file.  Descriptors are numbers for streams; a subshell has descriptors of its own for the same
     streams.
  2. A process has what a subshell gets a copy of: variables, functions, arguments, descriptors, options
     and the working directory.  Files, streams and the clock are there once (`Session`).
  3. A command ends with a status, or ends more than itself: a loop, a function, its process, all of
     the shell (`Ending`).
-/
namespace TestBench.Shell

/-- What a descriptor stands for. -/
inductive Stream where
  | nothing
  | source (rest : Octets)
  /-- What was written, the last piece first. -/
  | sink (pieces : List Octets)
  | file (place : Place) (offset : Nat) (appends : Bool)
  deriving Repr, Inhabited

structure Variable where
  value? : Option Octets
  isExported : Bool
  isReadOnly : Bool
  deriving Repr, DecidableEq, Inhabited

structure Process where
  bindings : List (String × Variable)
  functions : List (String × Command)
  name : Octets
  arguments : List Octets
  descriptors : List (Nat × Nat)
  base : Place
  status : Nat
  /-- The letters of the options that are on. -/
  options : List Char
  /-- What runs at an event: the end of the process, or a signal. -/
  traps : List (String × Octets)
  /-- Signals that came and have traps. -/
  arrived : List String
  /-- The variables to restore at the end of each function that runs, the last one first. -/
  locals : List (List (String × Option Variable))
  /-- How many loops run in one another. -/
  loops : Nat
  /-- The status of the last command whose output was taken for the command that runs. -/
  outputStatus? : Option Nat
  /-- The line of the command that runs. -/
  line : Nat
  lastJob? : Option Nat
  deriving Inhabited

/-- A command that runs beside the shell, with what it ends with. -/
structure BackgroundJob where
  number : Nat
  endsAtMs : Nat
  status : Nat
  /-- Whether it keeps the outputs of the shell open. -/
  holdsOutputs : Bool
  deriving Repr, DecidableEq, Inhabited

structure Session where
  process : Process
  root : FileNode
  streams : Array Stream
  documents : List (Nat × Word)
  jobs : List BackgroundJob
  clockMs : Nat
  stopAtMs : Option Nat
  deriving Inhabited

/-- How a command ends more than itself. -/
inductive Ending where
  | leaves (loops : Nat)
  | continues (loops : Nat)
  | returns (status : Nat)
  | exits (status : Nat)
  | killed (signal : Nat)
  /-- The time is up. -/
  | stopped
  deriving Repr, DecidableEq, Inhabited

abbrev Running (α : Type) := ExceptT Ending (StateM Session) α

/-- Runs something and gives its ending as a value. -/
def attempt {α : Type} (x : Running α) : Running (Except Ending α) :=
  ExceptT.lift x.run

/-! ## Processes -/

def getProcess : Running Process := return (← get).process

def modifyProcess (f : Process → Process) : Running Unit :=
  modify fun s => { s with process := f s.process }

def files : Running Files := return ⟨(← get).root, (← getProcess).base⟩

/-- Takes over the files as a command left them, but not its working directory. -/
def putFiles (files : Files) : Running Unit := modify fun s => { s with root := files.root }

def hasOption (c : Char) : Running Bool := return (← getProcess).options.contains c

/-- The number that the first process of a shell has. -/
def mainProcessNumber : Nat := 1000

/-! ## Streams -/

def newStream (stream : Stream) : Running Nat := do
  let s ← get
  set { s with streams := s.streams.push stream }
  return s.streams.size

def streamOf? (descriptor : Nat) : Running (Option Nat) :=
  return ((← getProcess).descriptors.find? (·.1 = descriptor)).map (·.2)

def setDescriptor (descriptor : Nat) (stream? : Option Nat) : Running Unit :=
  modifyProcess fun p =>
    let others := p.descriptors.filter (·.1 ≠ descriptor)
    { p with descriptors := match stream? with
      | some stream => (descriptor, stream) :: others
      | none => others }

/-- Bytes with others put over them from an offset on; what is missing before it is zero. -/
def overwrite (old : Text.Utf8.Bytes) (offset : Nat) (new : Text.Utf8.Bytes) : Text.Utf8.Bytes :=
  old.take offset ++ List.replicate (offset - old.length) 0 ++ new ++ old.drop (offset + new.length)

/-- Writes to a descriptor; false if nothing can be written there. -/
def write (descriptor : Nat) (s : Octets) : Running Bool := do
  match ← streamOf? descriptor with
  | none => return false
  | some i =>
    let shell ← get
    match shell.streams[i]? with
    | some .nothing => return true
    | some (.sink pieces) =>
      if !s.isEmpty then
        set { shell with
          streams := shell.streams.set! i .nothing |>.set! i (.sink (s :: pieces)) }
      return true
    | some (.file place offset appends) =>
      match shell.root.at? place with
      | some (.file bytes mode) =>
        let offset := if appends then bytes.length else offset
        let node := FileNode.file (overwrite bytes offset (Octets.toBytes s)) mode
        set { shell with
          root := node.put shell.root place
          streams := shell.streams.set! i (.file place (offset + s.length) appends) }
        return true
      | _ => return true
    | _ => return false

/-- What is left to read from a descriptor, if it can be read from. -/
def remaining? (descriptor : Nat) : Running (Option Octets) := do
  match ← streamOf? descriptor with
  | none => return none
  | some i =>
    let shell ← get
    match shell.streams[i]? with
    | some (.source rest) => return some rest
    | some (.file place offset _) =>
      match shell.root.at? place with
      | some (.file bytes _) => return some (Octets.ofBytes (bytes.drop offset))
      | _ => return some []
    | some .nothing => return some []
    | _ => return none

/-- Moves on in what is read from a descriptor. -/
def consume (descriptor n : Nat) : Running Unit := do
  if let some i ← streamOf? descriptor then
    modify fun shell =>
      match shell.streams[i]? with
      | some (.source rest) => { shell with streams := shell.streams.set! i (.source (rest.drop n)) }
      | some (.file place offset appends) =>
        { shell with streams := shell.streams.set! i (.file place (offset + n) appends) }
      | _ => shell

/-- What was written to a stream. -/
def contents (stream : Nat) : Running Octets := do
  match (← get).streams[stream]? with
  | some (.sink pieces) => return pieces.reverse.flatten
  | _ => return []

/-! ## Messages -/

/-- Writes a message of the shell. -/
def report (message : String) : Running Unit := do
  let p ← getProcess
  discard (write 2 (p.name ++ Octets.ofString s!": {p.line}: {message}\n"))

/-- Reports an error and ends the process. -/
def abort {α : Type} (message : String) : Running α := do
  report message
  throw (.exits 2)

/-! ## Variables -/

def variableNamed? (name : String) : Running (Option Variable) :=
  return Json.lookup name (← getProcess).bindings

def Process.valueOf? (p : Process) (name : String) : Option Octets :=
  (Json.lookup name p.bindings).bind (·.value?)

def Process.setVariable (p : Process) (name : String) (v : Variable) : Process :=
  { p with bindings := Json.insertField name v p.bindings }

/-- Gives a variable a value. -/
def assign (name : String) (value : Octets) : Running Unit := do
  let p ← getProcess
  let old := (Json.lookup name p.bindings).getD ⟨none, false, false⟩
  if old.isReadOnly then abort s!"{name}: is read only"
  let isExported := old.isExported || p.options.contains 'a'
  modifyProcess (·.setVariable name ⟨some value, isExported, false⟩)

/-- Puts a variable back as it was. -/
def restore (name : String) (old : Option Variable) : Running Unit :=
  modifyProcess fun p =>
    match old with
    | some v => p.setVariable name v
    | none => { p with bindings := p.bindings.filter (·.1 ≠ name) }

/-! ## Time -/

/-- Lets time pass. -/
def pass (ms : Nat) : Running Unit := do
  let s ← get
  let clockMs := s.clockMs + ms
  match s.stopAtMs with
  | some limit =>
    if limit < clockMs then
      set { s with clockMs := limit }
      throw .stopped
    else set { s with clockMs }
  | none => set { s with clockMs }

end TestBench.Shell
