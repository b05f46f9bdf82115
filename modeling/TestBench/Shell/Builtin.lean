import TestBench.Shell.Condition
import TestBench.Shell.Format
import TestBench.Shell.Signal
import TestBench.Shell.State
import TestBench.Utility.Table
/-
  The commands that the shell itself carries out and that run no other commands.

  Each takes its arguments and gives a status.  An error in a special one ends the shell (`abort`),
  an error in any other is reported and leaves status 2.
-/
namespace TestBench.Shell.Builtin

/-- Reports an error of a command, which is its end. -/
def refuse (name message : String) : Running Nat := do
  report s!"{name}: {message}"
  return 2

/-- Writes to the output. -/
def say (name : String) (s : Octets) : Running Nat := do
  if ← write 1 s then return 0
  else
    report s!"{name}: {name}: I/O error"
    return 1

/-- A number as some commands take it: digits only. -/
def natural? (s : Octets) : Option Nat :=
  if s.isEmpty || !s.all Char.isDigit then none
  else
    let n := Arithmetic.digitsValue 10 s
    if n < Nat.pow 2 31 then some n else none

def illegalNumber (s : Octets) : String := s!"Illegal number: {Octets.toString s}"

/-- The argument of a command that takes a number, or something else if there is none. -/
def numberOr (name : String) (otherwise : Nat) : List Octets → Running Nat
  | [] => return otherwise
  | s :: _ =>
    match natural? s with
    | some n => return n
    | none => abort s!"{name}: {illegalNumber s}"

/-! ## Output and conditions -/

def echo (arguments : List Octets) : Running Nat := say "echo" (echoText arguments)

def printf (arguments : List Octets) : Running Nat := do
  match arguments with
  | ['-', '-'] :: format :: rest => run format rest
  | ('-' :: c :: letters) :: rest =>
    if c = '-' && letters.isEmpty && rest.isEmpty then refuse "printf" usage
    else refuse "printf" s!"Illegal option -{c}"
  | format :: rest => run format rest
  | [] => refuse "printf" usage
where
  usage : String := "usage: printf format [arg ...]"
  run (format : Octets) (arguments : List Octets) : Running Nat := do
    let p := printFormat format arguments
    for complaint in p.complaints do report s!"printf: {complaint}"
    let status ← say "printf" p.output
    return max status p.status

def test (name : String) (arguments : List Octets) : Running Nat := do
  match Condition.check (← files) (name == "[") arguments with
  | .ok true => return 0
  | .ok false => return 1
  | .error fault => refuse name fault.message

/-! ## Directories -/

/-- The path of a place. -/
def placePath (place : Place) : Octets := Octets.ofString ("/" ++ String.intercalate "/" place)

def pwd : Running Nat := do say "pwd" (placePath (← getProcess).base ++ ['\n'])

def cd (arguments : List Octets) : Running Nat := do
  let p ← getProcess
  let arguments := arguments.filter fun a => !(["-L", "-P", "--"].contains (String.ofList a))
  let target := match arguments with
    | [] => p.valueOf? "HOME"
    | ['-'] :: _ => p.valueOf? "OLDPWD"
    | path :: _ => some path
  let path := target.getD []
  let here := placePath p.base
  if path.isEmpty then return 0
  match (← files).enterDirectory (Octets.toString path) with
  | .error _ => refuse "cd" s!"can't cd to {Octets.toString path}"
  | .ok files =>
    modifyProcess fun p => { p with base := files.base }
    assign "OLDPWD" here
    assign "PWD" (placePath files.base)
    if arguments.head? = some ['-'] then pwd else return 0

/-! ## Variables -/

/-- The name and the value of an argument that may assign. -/
def nameAndValue (s : Octets) : String × Option Octets :=
  let name := s.takeWhile (· ≠ '=')
  (String.ofList name, if name.length < s.length then some (s.drop (name.length + 1)) else none)

/-- A text in single quotes. -/
def quoted (s : Octets) : Octets :=
  '\'' :: s.flatMap (fun c => if c = '\'' then "'\"'\"'".toList else [c]) ++ ['\'']

/-- Changes variables for `export` and `readonly`, or lists those that it would change. -/
def declare (name : String) (change : Variable → Variable) (isListed : Variable → Bool)
    (arguments : List Octets) : Running Nat := do
  let arguments := arguments.filter (· ≠ ['-', 'p'])
  if arguments.isEmpty then
    for (x, v) in (← getProcess).bindings do
      if isListed v then
        let value := (v.value?.map fun s => '=' :: quoted s).getD []
        discard (say name (Octets.ofString s!"{name} {x}" ++ value ++ ['\n']))
    return 0
  for a in arguments do
    let (x, value?) := nameAndValue a
    if !isName x.toList then abort s!"{name}: {x}: bad variable name"
    if let some value := value? then assign x value
    let old := (← variableNamed? x).getD ⟨none, false, false⟩
    modifyProcess (·.setVariable x (change old))
  return 0

def unset (arguments : List Octets) : Running Nat := do
  let isFunction := arguments.head? = some ['-', 'f']
  for a in arguments.filter fun a => a ≠ ['-', 'f'] && a ≠ ['-', 'v'] do
    let x := String.ofList a
    if isFunction then
      modifyProcess fun p => { p with functions := p.functions.filter (·.1 ≠ x) }
    else
      if !isName a then abort s!"unset: {x}: bad variable name"
      if ((← variableNamed? x).any (·.isReadOnly)) then abort s!"unset: {x}: is read only"
      restore x none
  return 0

def localVariables (arguments : List Octets) : Running Nat := do
  match (← getProcess).locals with
  | [] => abort "local: not in a function"
  | _ =>
    for a in arguments do
      let (x, value?) := nameAndValue a
      if !isName x.toList then abort s!"local: {x}: bad variable name"
      let old ← variableNamed? x
      modifyProcess fun p =>
        match p.locals with
        | frame :: frames =>
          if frame.any (·.1 == x) then p else { p with locals := ((x, old) :: frame) :: frames }
        | [] => p
      if let some value := value? then assign x value
    return 0

def shift (arguments : List Octets) : Running Nat := do
  let n ← numberOr "shift" 1 arguments
  if (← getProcess).arguments.length < n then abort "shift: can't shift that many"
  modifyProcess fun p => { p with arguments := p.arguments.drop n }
  return 0

/-- The options that have names. -/
def optionNames : List (String × Char) :=
  [("errexit", 'e'), ("noglob", 'f'), ("ignoreeof", 'I'), ("interactive", 'i'), ("monitor", 'm'),
    ("noexec", 'n'), ("stdin", 's'), ("xtrace", 'x'), ("verbose", 'v'), ("vi", 'V'), ("emacs", 'E'),
    ("noclobber", 'C'), ("allexport", 'a'), ("notify", 'b'), ("nounset", 'u')]

def setOption (isOn : Bool) (c : Char) : Running Unit := do
  if (optionNames.any (·.2 = c)) then
    modifyProcess fun p =>
      let others := p.options.filter (· ≠ c)
      { p with options := if isOn then c :: others else others }
  else abort s!"set: Illegal option -{c}"

/-- Sets options and arguments. -/
def setArguments : List Octets → Running Unit
  | [] => pure ()
  | ['-', '-'] :: rest => modifyProcess fun p => { p with arguments := rest }
  | (sign :: letters) :: rest => do
    if (sign = '-' || sign = '+') && !letters.isEmpty then
      if letters = ['o'] then
        match rest with
        | name :: rest =>
          match optionNames.lookup (String.ofList name) with
          | some c => setOption (sign = '-') c
          | none => abort s!"set: Illegal option -o {Octets.toString name}"
          setArguments rest
        | [] => pure ()
      else
        letters.forM (setOption (sign = '-'))
        setArguments rest
    else modifyProcess fun p => { p with arguments := (sign :: letters) :: rest }
  | rest => modifyProcess fun p => { p with arguments := rest }

def setCommand (arguments : List Octets) : Running Nat := do
  if arguments.isEmpty then
    for (x, v) in (← getProcess).bindings do
      if let some value := v.value? then
        discard (say "set" (Octets.ofString x ++ '=' :: quoted value ++ ['\n']))
  else setArguments arguments
  return 0

/-! ## Reading a line -/

/-- A line with its backslashes resolved; a character that was behind one is quoted. -/
def plainLine (isRaw : Bool) : Octets → List Glyph
  | '\\' :: c :: rest =>
    if isRaw then ⟨'\\', false⟩ :: plainLine isRaw (c :: rest) else ⟨c, true⟩ :: plainLine isRaw rest
  | ['\\'] => if isRaw then [⟨'\\', false⟩] else []
  | c :: rest => ⟨c, false⟩ :: plainLine isRaw rest
  | [] => []

/-- How much of an input is its first line, with lines that are joined to it. -/
def lineLength (isRaw : Bool) : Octets → Nat
  | [] => 0
  | '\\' :: _ :: rest => if isRaw then lineLength isRaw rest + 2 else lineLength isRaw rest + 2
  | c :: rest => if c = '\n' then 1 else lineLength isRaw rest + 1

/-- Drops what separates in front. -/
def dropBlanks (separators : Octets) (s : List Glyph) : List Glyph :=
  s.dropWhile fun g => !g.isQuoted && separators.contains g.char && isSpace g.char

/-- The values for as many variables; the last one gets all that is left. -/
def shares (separators : Octets) : Nat → List Glyph → List Octets
  | 0, _ => []
  | 1, s =>
    [((dropBlanks separators (dropBlanks separators s).reverse).reverse).map (·.char)]
  | n + 2, s =>
    let s := dropBlanks separators s
    let isSeparator (g : Glyph) : Bool := !g.isQuoted && separators.contains g.char
    let first := s.takeWhile (!isSeparator ·)
    let rest := dropBlanks separators (s.drop first.length)
    let rest := match rest with
      | g :: behind => if isSeparator g then behind else rest
      | [] => []
    first.map (·.char) :: shares separators (n + 1) rest

def readLine (arguments : List Octets) : Running Nat := do
  let isRaw := arguments.head? = some ['-', 'r']
  let names := if isRaw then arguments.drop 1 else arguments
  if names.isEmpty then refuse "read" "arg count"
  else
    let length (s : Octets) : Nat :=
      if isRaw then min s.length ((s.takeWhile (· ≠ '\n')).length + 1) else lineLength isRaw s
    let input := (← remaining? 0).getD []
    let line := input.take (length input)
    consume 0 line.length
    let isWhole := line.getLast? = some '\n'
    let text := if isWhole then line.dropLast else line
    let glyphs := (plainLine isRaw text).filter fun g => !(g.isQuoted && g.char = '\n')
    let separators := ((← getProcess).valueOf? "IFS").getD [' ', '\t', '\n']
    for (name, value) in names.zip (shares separators names.length glyphs) do
      if isName name then assign (String.ofList name) value
      else abort s!"read: {Octets.toString name}: bad variable name"
    return if isWhole then 0 else 1

/-! ## Signals and jobs -/

/-- Sends a signal to the shell itself. -/
def receive (signal : Signal) : Running Unit := do
  let trap? := (← getProcess).traps.lookup signal.name
  match if signal.number = 9 || signal.number = 19 then none else trap? with
  | some [] => pure ()
  | some _ => modifyProcess fun p => { p with arrived := p.arrived ++ [signal.name] }
  | none =>
    if signal.isHarmless then pure ()
    else if signal.holds then throw .stopped
    else throw (.killed signal.number)

/-- The signal that is asked for, and the arguments behind it. -/
def wantedSignal (arguments : List Octets) : Option (Option Signal) × List Octets :=
  match arguments with
  | ['-', 's'] :: name :: rest => ((signal? name), rest)
  | ['-', '-'] :: rest => (some (Signal.ofNumber? 15), rest)
  | ('-' :: name) :: rest => (signal? name, rest)
  | rest => (some (Signal.ofNumber? 15), rest)
where
  signal? (s : Octets) : Option (Option Signal) :=
    if s = ['0'] || s = "EXIT".toList then some none else (Signal.ofText? s).map some

def killUsage : String :=
  "Usage: kill [-s sigspec | -signum | -sigspec] [pid | job]... or\nkill -l [exitstatus]"

def kill (arguments : List Octets) : Running Nat := do
  match arguments with
  | [] => refuse "kill" killUsage
  | [['-', 'l'], n] =>
    match (natural? n).bind fun n => Signal.ofNumber? (n % 128) with
    | some signal => say "kill" (Octets.ofString (signal.name ++ "\n"))
    | none => refuse "kill" (illegalNumber n)
  | ['-', 'l'] :: _ =>
    for signal in Signal.all do discard (say "kill" (Octets.ofString (signal.name ++ "\n")))
    return 0
  | _ =>
    match wantedSignal arguments with
    | (none, _) =>
      match arguments with
      | ['-', 's'] :: name :: _ => refuse "kill" s!"invalid signal number or name: {Octets.toString name}"
      | ('-' :: c :: _) :: _ => refuse "kill" s!"Illegal option -{c}"
      | _ => refuse "kill" killUsage
    | (some _, []) => refuse "kill" killUsage
    | (some signal?, targets) =>
      let mut status := 0
      for target in targets do
        match natural? target with
        | none => return ← refuse "kill" (illegalNumber target)
        | some n =>
          if n = mainProcessNumber then
            if let some signal := signal? then receive signal
          else if (← get).jobs.any (·.number = n) then
            if let some signal := signal? then
              modify fun s => { s with jobs := s.jobs.map fun job =>
                if job.number = n && s.clockMs < job.endsAtMs && !signal.isHarmless then
                  { job with endsAtMs := s.clockMs, status := 128 + signal.number }
                else job }
          else
            report "kill: No such process\n"
            status := 1
      return status

/-- Waits for jobs to end. -/
def wait (arguments : List Octets) : Running Nat := do
  let await (job : BackgroundJob) : Running Unit := do
    let now := (← get).clockMs
    if now < job.endsAtMs then pass (job.endsAtMs - now)
  if arguments.isEmpty then
    for job in (← get).jobs do await job
    return 0
  let mut status := 0
  for a in arguments do
    match natural? a with
    | none => return ← refuse "wait" (illegalNumber a)
    | some n =>
      match (← get).jobs.find? (·.number = n) with
      | none => status := 127
      | some job =>
        await job
        status := job.status
  return status

/-- The name under which a trap is kept. -/
def eventName? (s : Octets) : Option String :=
  if s = ['0'] || s = "EXIT".toList then some "EXIT" else (Signal.ofText? s).map (·.name)

def trap (arguments : List Octets) : Running Nat := do
  match arguments.filter (· ≠ ['-', '-']) with
  | [] =>
    for (event, script) in (← getProcess).traps do
      discard (say "trap" (Octets.ofString "trap -- " ++ quoted script ++
        Octets.ofString s!" {event}\n"))
    return 0
  | script :: events =>
    let resets := script = ['-'] || events.isEmpty || !script.isEmpty && script.all Char.isDigit
    let events := if script ≠ ['-'] && resets then script :: events else events
    for e in events do
      match eventName? e with
      | none =>
        report s!"trap: {Octets.toString e}: bad trap"
        return 1
      | some name =>
        modifyProcess fun p =>
          let others := p.traps.filter (·.1 ≠ name)
          { p with traps := if resets then others else others ++ [(name, script)] }
    return 0

/-! ## Endings -/

def exitShell (arguments : List Octets) : Running Nat := do
  throw (.exits ((← numberOr "exit" (← getProcess).status arguments) % 256))

def returnStatus (arguments : List Octets) : Running Nat := do
  throw (.returns ((← numberOr "return" (← getProcess).status arguments) % 256))

/-- Ends or continues loops, if there is one. -/
def leave (name : String) (ending : Nat → Ending) (arguments : List Octets) : Running Nat := do
  let n ← numberOr name 1 arguments
  if n = 0 then abort s!"{name}: Illegal number: 0"
  let loops := (← getProcess).loops
  if loops = 0 then return 0 else throw (ending (min n loops))

/-! ## All of them -/

/-- The command of a name, if the shell carries it out. -/
def find? (name : String) : Option (List Octets → Running Nat) :=
  match name with
  | ":" => some fun _ => pure 0
  | "true" => some fun _ => pure 0
  | "false" => some fun _ => pure 1
  | "echo" => some echo
  | "printf" => some printf
  | "test" => some (test "test")
  | "[" => some (test "[")
  | "pwd" => some fun _ => pwd
  | "cd" => some cd
  | "chdir" => some cd
  | "export" =>
    some (declare "export" (fun v => { v with isExported := true }) (·.isExported))
  | "readonly" =>
    some (declare "readonly" (fun v => { v with isReadOnly := true }) (·.isReadOnly))
  | "unset" => some unset
  | "local" => some localVariables
  | "shift" => some shift
  | "set" => some setCommand
  | "read" => some readLine
  | "kill" => some kill
  | "wait" => some wait
  | "trap" => some trap
  | "exit" => some exitShell
  | "return" => some returnStatus
  | "break" => some (leave "break" .leaves)
  | "continue" => some (leave "continue" .continues)
  | "umask" => some fun a => if a.isEmpty then say "umask" "0022\n".toList else pure 0
  | "ulimit" => some fun a => if a.isEmpty then say "ulimit" "unlimited\n".toList else pure 0
  | "times" => some fun _ =>
    say "times" "0m0.000000s 0m0.000000s\n0m0.000000s 0m0.000000s\n".toList
  | "alias" => some fun _ => pure 0
  | "unalias" => some fun _ => pure 0
  | "hash" => some fun _ => pure 0
  | "jobs" => some fun _ => pure 0
  | _ => none

/-- The commands that the shell carries out by running others. -/
def runners : List String := ["eval", ".", "exec", "command", "type"]

def isBuiltin (name : String) : Bool := (find? name).isSome || runners.contains name

end TestBench.Shell.Builtin
