import TestBench.Shell.Builtin
import TestBench.Shell.Fields
/-
  Running scripts.

  1. Words are expanded to pieces, and these to fields (`expandFields`) or to one text.
  2. A command gives a status.  A subshell runs with a copy of the process and ends with it; what it
     changes in files, streams and time stays (`inSubshell`).
  3. The stages of a pipe run one after another, each on what the one before it wrote, but they start
     at the same time, and the last one to end ends the pipe.
  4. Fuel bounds the nesting of calls and the number of turns of a loop; a script that uses it up counts
     as one that runs until it is stopped.
-/
namespace TestBench.Shell

/-! ## Words -/

def separators : Running Octets := return ((← getProcess).valueOf? "IFS").getD [' ', '\t', '\n']

/-- The values of a parameter that stands for several. -/
def isMany (name : String) : Bool := name == "@" || name == "*"

/-- The value of a parameter. -/
def parameterValue? (name : String) : Running (Option Octets) := do
  let p ← getProcess
  match name with
  | "?" => return some (Octets.ofNat p.status)
  | "#" => return some (Octets.ofNat p.arguments.length)
  | "$" => return some (Octets.ofNat mainProcessNumber)
  | "!" => return p.lastJob?.map Octets.ofNat
  | "-" => return some p.options
  | "0" => return some p.name
  | "@" | "*" =>
    let between := ((← separators).head?.map fun c => [c]).getD []
    return if p.arguments.isEmpty then none else some (p.arguments.intersperse between).flatten
  | _ =>
    match Builtin.natural? name.toList with
    | some n => return if n = 0 then some p.name else p.arguments[n - 1]?
    | none => return p.valueOf? name

/-- The pieces of a value that is put into a word. -/
def valuePieces (inQuotes : Bool) (s : Octets) : List Piece :=
  [if inQuotes then .quoted s else .splittable s]

/-- The pieces of all arguments. -/
def argumentPieces (inQuotes : Bool) : Running (List Piece) := do
  let arguments := (← getProcess).arguments
  if arguments.isEmpty && inQuotes then return [.noArguments]
  return (arguments.map fun a => if inQuotes then Piece.quoted a else .splittable a).intersperse .argumentEnd

/-- Parts of a word that stand in for a value, outside of quotes, are split as a value is. -/
def standIn (inQuotes : Bool) (pieces : List Piece) : List Piece :=
  pieces.map fun p => match p with
    | .literal s => if inQuotes then .quoted s else .splittable s
    | p => p

/-- The home directory in place of a tilde at the beginning of a word. -/
def expandTilde (pieces : List Piece) : Running (List Piece) := do
  match pieces, (← getProcess).valueOf? "HOME" with
  | .literal ['~'] :: rest, some home => return .quoted home :: rest
  | .literal ('~' :: '/' :: path) :: rest, some home =>
    return .quoted home :: .literal ('/' :: path) :: rest
  | _, _ => return pieces

/-- The value of an arithmetic expression, whose assignments are carried out. -/
def evaluateArithmetic (text : Octets) : Running Octets := do
  let get (changes : List (String × Octets)) (x : String) : Running Octets := do
    match changes.lookup x with
    | some value => return value
    | none => return ((← parameterValue? x).getD [])
  let p ← getProcess
  let value (changes : List (String × Octets)) (x : String) : Octets :=
    (changes.lookup x).getD ((p.valueOf? x).getD [])
  let result := do
    Arithmetic.eval value (fun changes x v => (x, v) :: changes) (← Arithmetic.parse text) []
  match result with
  | .error fault => abort (fault.message text)
  | .ok (n, changes) =>
    for (x, _) in changes.reverse do assign x (← get changes x)
    return Octets.ofInt n.toInt

/-! ## Redirections -/

/-- What is said of a file that cannot be opened. -/
def openFault (action missing path : String) (e : FileError) : String :=
  let reason := match e with
    | .missing => missing
    | .notDirectory => missing
    | e => e.text
  s!"cannot {action} {path}: {reason}"

/-- Opens a file for a redirection. -/
def openFile (kind : RedirectionKind) (path : String) : Running (Except String (Option Nat)) := do
  match path with
  | "/dev/null" => return .ok (some (← newStream .nothing))
  | "/dev/stdin" => return .ok (← streamOf? 0)
  | "/dev/stdout" => return .ok (← streamOf? 1)
  | "/dev/stderr" => return .ok (← streamOf? 2)
  | _ =>
    let files ← files
    match kind with
    | .input =>
      match files.locate path with
      | .ok ⟨place, some (.file ..)⟩ => return .ok (some (← newStream (.file place 0 false)))
      | .ok ⟨_, some _⟩ => return .ok (some (← newStream .nothing))
      | .ok ⟨_, none⟩ => return .error (openFault "open" "No such file" path .missing)
      | .error e => return .error (openFault "open" "No such file" path e)
    | kind =>
      let change (bytes : Text.Utf8.Bytes) : Text.Utf8.Bytes := if kind = .output then [] else bytes
      match files.alter path change, files.locate path with
      | .ok changed, .ok spot =>
        putFiles changed
        return .ok (some (← newStream (.file spot.place 0 (kind = .append))))
      | .error e, _ => return .error (openFault "create" "Directory nonexistent" path e)
      | _, .error e => return .error (openFault "create" "Directory nonexistent" path e)

/-- Runs something and puts the descriptors back as they were. -/
def keepingDescriptors {α : Type} (x : Running α) : Running α := do
  let descriptors := (← getProcess).descriptors
  let r ← attempt x
  modifyProcess fun p => { p with descriptors }
  match r with
  | .ok a => return a
  | .error ending => throw ending

/-! ## Processes -/

/-- Runs something with a copy of the process, which is given up afterwards. -/
def inSubshell (x : Running Nat) : Running Nat := do
  let outer ← getProcess
  let ignored := outer.traps.filter (·.2.isEmpty)
  modifyProcess fun p => { p with traps := ignored, loops := 0 }
  let r ← attempt x
  let arrived := (← getProcess).arrived
  modifyProcess fun _ => { outer with arrived }
  match r with
  | .ok status => return status
  | .error (.exits status) => return status
  | .error (.returns status) => return status
  | .error (.leaves _) => return 0
  | .error (.continues _) => return 0
  | .error ending => throw ending

/-- Counts a loop around something that runs. -/
def inLoop (x : Running Nat) : Running Nat := do
  let loops := (← getProcess).loops
  modifyProcess fun p => { p with loops := loops + 1 }
  let r ← attempt x
  modifyProcess fun p => { p with loops }
  match r with
  | .ok status => return status
  | .error ending => throw ending

/-- Ends the process with a failure if it is to end so and nobody looks at the status. -/
def checked (isTested : Bool) (status : Nat) : Running Nat := do
  modifyProcess fun p => { p with status }
  if status ≠ 0 && !isTested && (← hasOption 'e') then throw (.exits status)
  return status

/-- Whether a command leaves both outputs of the shell alone. -/
def Command.detaches : Command → Bool
  | .simple _ _ _ redirections => isApart redirections
  | .redirected _ redirections => isApart redirections
  | _ => false
where
  isApart (redirections : List (Nat × RedirectionKind × List WordPart)) : Bool :=
    redirections.any (·.1 = 1) && redirections.any (·.1 = 2)

/-- Runs a program that is no part of the shell. -/
def runUtility (work : Utility.Work Unit) (name : String) (arguments : List Octets) : Running Nat := do
  let input := (← remaining? 0).getD []
  let inputIsFile := match (← streamOf? 0).bind ((← get).streams[·]?) with
    | some (.file ..) => true
    | _ => false
  let effects := Utility.run work { name, arguments, input, inputIsFile } (← files)
  if effects.usedInput then consume 0 input.length
  putFiles effects.files
  for (descriptor, s) in effects.written.reverse do discard (write descriptor s)
  pass effects.ms
  return effects.status

/-- The script in a file that is to be run as a program, or why there is none. -/
def programText? (files : Files) (path : String) : Except (Nat × String) Octets :=
  match files.node path with
  | .ok (.file bytes mode) =>
    if mode &&& 0b001001001 = 0 then .error (126, "Permission denied") else .ok (Octets.ofBytes bytes)
  | .ok _ => .error (126, "Permission denied")
  | .error .missing => .error (127, "not found")
  | .error .notDirectory => .error (127, "not found")
  | .error e => .error (126, e.text)

/-- The directories of programs. -/
def programDirectories : List String := ["/bin/", "/usr/bin/"]

/-- The name of a program in one of their directories. -/
def programName? (path : String) : Option String :=
  (programDirectories.find? fun d => path.startsWith d).map fun d =>
    String.ofList (path.toList.drop d.length)

/-- The programs that run other commands. -/
def runningPrograms : List String := ["sh", "dash", "env", "printenv"]

/-- Whether there is a program of the name. -/
def isProgram (name : String) : Bool :=
  runningPrograms.contains name || (Utility.find? name).isSome
    || ["echo", "printf", "test", "[", "pwd", "kill"].contains name

/-- Whether the directories of programs are searched for names. -/
def searchesPrograms (p : Process) : Bool :=
  (p.valueOf? "PATH").all fun path =>
    (Text.splitChar ':' path).any fun d =>
      programDirectories.contains (Octets.toString (d ++ if d.getLast? = some '/' then [] else ['/']))

/-- The lines of the environment. -/
def environmentLines (p : Process) : List Octets :=
  p.bindings.filterMap fun (x, v) =>
    if v.isExported then v.value?.map fun s => Octets.ofString x ++ '=' :: s else none

/-- The process of a shell that is started as a program. -/
def Process.freshShell (p : Process) (name : Octets) (arguments : List Octets) : Process :=
  { p with
    bindings := (p.bindings.filter (·.2.isExported)).map fun (x, v) =>
      (x, { v with isReadOnly := false })
    functions := [], name, arguments, options := [], locals := [], loops := 0, line := 1
    lastJob? := none }

/-- What `type` and `command -v` know of a name. -/
inductive Meaning where
  | keyword
  | function
  | builtin
  | program (path : String)
  | unknown
  deriving Repr, DecidableEq, Inhabited

def meaningOf (p : Process) (name : String) : Meaning :=
  if reservedWords.contains name then .keyword
  else if (p.functions.any (·.1 == name)) then .function
  else if Builtin.isBuiltin name then .builtin
  else if isProgram name then .program s!"/usr/bin/{name}"
  else .unknown

def describe (name : String) : Meaning → String
  | .keyword => s!"{name} is a shell keyword"
  | .function => s!"{name} is a shell function"
  | .builtin =>
    if specialBuiltins.contains name then s!"{name} is a special shell builtin"
    else s!"{name} is a shell builtin"
  | .program path => s!"{name} is {path}"
  | .unknown => s!"{name}: not found"

/-- Says what names mean; fails if one means nothing. -/
def tellMeanings (isBrief : Bool) (names : List Octets) : Running Nat := do
  let p ← getProcess
  let mut status := 0
  for name in names.map Octets.toString do
    let meaning := meaningOf p name
    if meaning = .unknown then status := 127
    let brief := match meaning with
      | .program path => path
      | _ => name
    if !isBrief then discard (write 1 (Octets.ofString (describe name meaning ++ "\n")))
    else if meaning ≠ .unknown then discard (write 1 (Octets.ofString (brief ++ "\n")))
  return status

/-- What the trace of commands shows. -/
def trace (words : List Octets) : Running Unit := do
  if ← hasOption 'x' then
    discard (write 2 (['+', ' '] ++ (words.intersperse [' ']).flatten ++ ['\n']))

/-- How deep functions may call one another. -/
def callLimit : Nat := 1000

/-! ## Commands -/

mutual

/-- Expands parts of a word. -/
def expandParts : Nat → Word → Running (List Piece)
  | 0, _ => throw .stopped
  | _ + 1, [] => return []
  | fuel + 1, part :: rest => do
    let pieces ← expandPart fuel part
    return pieces ++ (← expandParts fuel rest)

def expandPart : Nat → WordPart → Running (List Piece)
  | 0, _ => throw .stopped
  | _ + 1, .text inQuotes chars => return [if inQuotes then .quoted chars else .literal chars]
  | fuel + 1, .output inQuotes body => return valuePieces inQuotes (← outputOf fuel body)
  | fuel + 1, .arithmetic inQuotes word => do
    return valuePieces inQuotes (← evaluateArithmetic (joinPieces (← expandParts fuel word)))
  | fuel + 1, .parameter inQuotes name use word => do
    let value? ← parameterValue? name
    let given := do
      match value? with
      | some value =>
        if isMany name && (name == "@" || !inQuotes) then argumentPieces inQuotes
        else pure (valuePieces inQuotes value)
      | none =>
        if isMany name then argumentPieces (inQuotes && name == "@")
        else pure (if inQuotes then [.quoted []] else [])
    let isGiven (colon : Bool) : Bool := value?.any fun v => !colon || !v.isEmpty
    let known : Running Unit := do
      if value?.isNone && !isMany name && (← hasOption 'u') then abort s!"{name}: parameter not set"
    match use with
    | .bad => abort "Bad substitution"
    | .value => known; given
    | .length =>
      known
      return valuePieces inQuotes (Octets.ofNat (value?.getD []).length)
    | .orDefault colon =>
      if isGiven colon then given else return standIn inQuotes (← expandParts fuel word)
    | .orAssign colon =>
      if isGiven colon then given
      else
        let value := joinPieces (← expandParts fuel word)
        assign name value
        return valuePieces inQuotes value
    | .orFail colon =>
      if isGiven colon then given
      else
        let message := Octets.toString (joinPieces (← expandParts fuel word))
        let message := if !message.isEmpty then message
          else if colon then "parameter not set or null" else "parameter not set"
        abort s!"{name}: {message}"
    | .ifSet colon =>
      if isGiven colon then return standIn inQuotes (← expandParts fuel word)
      else return if inQuotes then [.quoted []] else []
    | .dropFront longest =>
      known
      let pattern := Pattern.ofGlyphs ((← expandParts fuel word).flatMap Piece.glyphs)
      return valuePieces inQuotes (pattern.trimFront longest (value?.getD []))
    | .dropBack longest =>
      known
      let pattern := Pattern.ofGlyphs ((← expandParts fuel word).flatMap Piece.glyphs)
      return valuePieces inQuotes (pattern.trimBack longest (value?.getD []))

/-- What a command writes, without line breaks at the end. -/
def outputOf : Nat → Command → Running Octets
  | 0, _ => throw .stopped
  | fuel + 1, body => do
    let stream ← newStream (.sink [])
    let status ← inSubshell do
      setDescriptor 1 (some stream)
      runToEnd fuel (runCommand fuel false body)
    modifyProcess fun p => { p with status, outputStatus? := some status }
    let s := (← contents stream).filter (· ≠ '\x00')
    return (s.reverse.dropWhile (· = '\n')).reverse

/-- Expands a word to one text. -/
def expandText : Nat → Word → Running Octets
  | 0, _ => throw .stopped
  | fuel + 1, word => do return joinPieces (← expandTilde (← expandParts fuel word))

/-- Expands words to fields. -/
def expandFields : Nat → List Word → Running (List Octets)
  | 0, _ => throw .stopped
  | _ + 1, [] => return []
  | fuel + 1, word :: rest => do
    let fields := split (← separators) (← expandTilde (← expandParts fuel word))
    let files ← files
    let isPlain ← hasOption 'f'
    let first := fields.flatMap fun f => if isPlain then [f.map (·.char)] else expandFiles files f
    return first ++ (← expandFields fuel rest)

/-- Carries out redirections; the first that fails is the last. -/
def redirect : Nat → List Redirection → Running (Except String Unit)
  | 0, _ => throw .stopped
  | _ + 1, [] => return .ok ()
  | fuel + 1, (descriptor, kind, word) :: rest => do
    let opened ← (match kind with
      | .duplicate => do
        let text ← expandText fuel word
        if text = ['-'] then return .ok none
        match Builtin.natural? text with
        | none => abort "Syntax error: Bad fd number"
        | some source =>
          match ← streamOf? source with
          | some stream => return .ok (some stream)
          | none => return .error s!"{source}: Bad file descriptor"
      | .document index => do
        let word := ((← get).documents.lookup index).getD []
        let text := joinPieces (← expandParts fuel word)
        return .ok (some (← newStream (.source text)))
      | kind => do
        openFile kind (Octets.toString (← expandText fuel word))
      : Running (Except String (Option Nat)))
    match opened with
    | .ok stream? =>
      setDescriptor descriptor stream?
      redirect fuel rest
    | .error message => return .error message

/-- Runs something with redirections. -/
def withRedirections : Nat → List Redirection → Running Nat → Running Nat
  | 0, _, _ => throw .stopped
  | fuel + 1, redirections, x => keepingDescriptors do
    match ← redirect fuel redirections with
    | .ok () => x
    | .error message =>
      report message
      return 2

/-- Runs something that may end the process, and then what waits for the end of the process. -/
def runToEnd : Nat → Running Nat → Running Nat
  | 0, _ => throw .stopped
  | fuel + 1, x => do
    let status ← match ← attempt x with
      | .ok status => pure status
      | .error (.exits status) => pure status
      | .error (.returns status) => pure status
      | .error (.leaves _) => pure 0
      | .error (.continues _) => pure 0
      | .error ending => throw ending
    match (← getProcess).traps.lookup "EXIT" with
    | none => return status
    | some script =>
      modifyProcess fun p => { p with traps := p.traps.filter (·.1 ≠ "EXIT"), status }
      match ← attempt (runText fuel false "" script) with
      | .ok _ => return status
      | .error (.exits other) => return other
      | .error ending => throw ending

/-- Runs the scripts that wait for the signals that came. -/
def runTraps : Nat → Running Unit
  | 0 => throw .stopped
  | fuel + 1 => do
    let p ← getProcess
    match p.arrived with
    | [] => pure ()
    | event :: rest =>
      modifyProcess fun p => { p with arrived := rest }
      if let some script := p.traps.lookup event then discard (runText fuel false "" script)
      modifyProcess fun q => { q with status := p.status }
      runTraps fuel

/-- Runs a command and gives its status; a status that `isTested` may be a failure without ending
    anything. -/
def runCommand : Nat → Bool → Command → Running Nat
  | 0, _, _ => throw .stopped
  | fuel + 1, isTested, command => do
    let status ← match command with
      | .nothing => pure 0
      | .simple line assignments words redirections => do
        checked isTested (← runSimple fuel isTested line assignments words redirections)
      | .redirected body redirections => do
        checked isTested (← withRedirections fuel redirections (runCommand fuel isTested body))
      | .pipe stages => do
        let start := (← get).clockMs
        checked isTested (← runStages fuel start start none stages)
      | .negate body => do
        let status ← runCommand fuel true body
        pure (if status = 0 then 1 else 0)
      | .both first second => do
        let status ← runCommand fuel true first
        if status = 0 then runCommand fuel isTested second else pure status
      | .either first second => do
        let status ← runCommand fuel true first
        if status = 0 then pure 0 else runCommand fuel isTested second
      | .inOrder first second => do
        discard (runCommand fuel isTested first)
        runCommand fuel isTested second
      | .background body => runBackground fuel body
      | .subshell body => do
        checked isTested (← inSubshell (runToEnd fuel (runCommand fuel isTested body)))
      | .choice condition yes no => do
        let status ← runCommand fuel true condition
        if status = 0 then runCommand fuel isTested yes else runCommand fuel isTested no
      | .loop untilDone condition body => inLoop (runLoop fuel isTested untilDone condition body 0)
      | .each line name words body => do
        modifyProcess fun p => { p with line }
        let values ← match words with
          | some words => expandFields fuel words
          | none => pure (← getProcess).arguments
        inLoop (runEach fuel isTested name values body 0)
      | .select line subject branches => do
        modifyProcess fun p => { p with line }
        runBranch fuel isTested (← expandText fuel subject) branches
      | .define name body => do
        modifyProcess fun p => { p with functions := (name, body) :: p.functions.filter (·.1 ≠ name) }
        pure 0
    modifyProcess fun p => { p with status }
    if !(← getProcess).arrived.isEmpty then runTraps fuel
    return status

/-- Runs the stages of a pipe; the last one to end so far ended at `latest`. -/
def runStages : Nat → Nat → Nat → Option Nat → List Command → Running Nat
  | 0, _, _, _, _ => throw .stopped
  | _ + 1, _, _, _, [] => return 0
  | fuel + 1, start, latest, input?, stage :: rest => do
    let output? ← if rest.isEmpty then pure none else some <$> newStream (.sink [])
    let status ← inSubshell do
      if input?.isSome then setDescriptor 0 input?
      if output?.isSome then setDescriptor 1 output?
      runToEnd fuel (runCommand fuel false stage)
    let latest := max latest (← get).clockMs
    match output? with
    | none =>
      modify fun s => { s with clockMs := latest }
      return status
    | some stream =>
      modify fun s => { s with clockMs := start }
      let input ← newStream (.source (← contents stream))
      runStages fuel start latest (some input) rest

/-- Starts a command that runs beside the shell. -/
def runBackground : Nat → Command → Running Nat
  | 0, _ => throw .stopped
  | fuel + 1, body => do
    let start := (← get).clockMs
    let input ← newStream .nothing
    let ended ← attempt (inSubshell do
      setDescriptor 0 (some input)
      runToEnd fuel (runCommand fuel false body))
    let s ← get
    let number := mainProcessNumber + 1 + s.jobs.length
    let endsAtMs := match ended with
      | .error .stopped => s.clockMs + 1
      | _ => s.clockMs
    let status := match ended with
      | .ok status => status
      | .error (.killed signal) => 128 + signal
      | .error _ => 0
    let job : BackgroundJob := { number, endsAtMs, status, holdsOutputs := !body.detaches }
    set { s with jobs := s.jobs ++ [job], clockMs := start }
    modifyProcess fun p => { p with lastJob? := some number }
    return 0

/-- Runs the turns of a loop. -/
def runLoop : Nat → Bool → Bool → Command → Command → Nat → Running Nat
  | 0, _, _, _, _, _ => throw .stopped
  | fuel + 1, isTested, untilDone, condition, body, last => do
    let turn ← attempt do
      let status ← runCommand fuel true condition
      if (status = 0) = untilDone then return none
      return some (← runCommand fuel isTested body)
    match turn with
    | .ok none => return last
    | .ok (some status) => runLoop fuel isTested untilDone condition body status
    | .error (.leaves n) => if n ≤ 1 then return 0 else throw (.leaves (n - 1))
    | .error (.continues n) =>
      if n ≤ 1 then runLoop fuel isTested untilDone condition body 0 else throw (.continues (n - 1))
    | .error ending => throw ending

/-- Runs a loop over values. -/
def runEach : Nat → Bool → String → List Octets → Command → Nat → Running Nat
  | 0, _, _, _, _, _ => throw .stopped
  | _ + 1, _, _, [], _, last => return last
  | fuel + 1, isTested, name, value :: rest, body, _ => do
    assign name value
    match ← attempt (runCommand fuel isTested body) with
    | .ok status => runEach fuel isTested name rest body status
    | .error (.leaves n) => if n ≤ 1 then return 0 else throw (.leaves (n - 1))
    | .error (.continues n) =>
      if n ≤ 1 then runEach fuel isTested name rest body 0 else throw (.continues (n - 1))
    | .error ending => throw ending

/-- Runs the first branch that has a pattern for a text. -/
def runBranch : Nat → Bool → Octets → List (List Word × Command) → Running Nat
  | 0, _, _, _ => throw .stopped
  | _ + 1, _, _, [] => return 0
  | fuel + 1, isTested, subject, (patterns, body) :: rest => do
    if ← anyAccepts fuel subject patterns then runCommand fuel isTested body
    else runBranch fuel isTested subject rest

def anyAccepts : Nat → Octets → List Word → Running Bool
  | 0, _, _ => throw .stopped
  | _ + 1, _, [] => return false
  | fuel + 1, subject, word :: rest => do
    let pattern := Pattern.ofGlyphs ((← expandTilde (← expandParts fuel word)).flatMap Piece.glyphs)
    if pattern.accepts subject then return true else anyAccepts fuel subject rest

/-- Carries out assignments and gives their names with the values from before. -/
def assignAll : Nat → List (String × Word) → Running (List (String × Option Variable))
  | 0, _ => throw .stopped
  | _ + 1, [] => return []
  | fuel + 1, (name, word) :: rest => do
    let value ← expandText fuel word
    let old ← variableNamed? name
    assign name value
    trace [Octets.ofString name ++ '=' :: value]
    return (name, old) :: (← assignAll fuel rest)

/-- Runs a simple command. -/
def runSimple : Nat → Bool → Nat → List (String × Word) → List Word → List Redirection → Running Nat
  | 0, _, _, _, _, _ => throw .stopped
  | fuel + 1, isTested, line, assignments, words, redirections => do
    modifyProcess fun p => { p with line, outputStatus? := none }
    match ← expandFields fuel words with
    | [] =>
      withRedirections fuel redirections do
        discard (assignAll fuel assignments)
        return (← getProcess).outputStatus?.getD 0
    | ['e', 'x', 'e', 'c'] :: [] => do
      match ← redirect fuel redirections with
      | .ok () =>
        discard (assignAll fuel assignments)
        return 0
      | .error message => abort message
    | name :: arguments =>
      let text := Octets.toString name
      let isSpecial := specialBuiltins.contains text
      keepingDescriptors do
        match ← redirect fuel redirections with
        | .error message =>
          if isSpecial then abort message
          report message
          return 2
        | .ok () =>
          let old ← assignAll fuel assignments
          trace (name :: arguments)
          if isSpecial then runNamed fuel isTested text arguments
          else
            for (x, _) in old do
              modifyProcess fun p =>
                { p with bindings := p.bindings.map fun (y, v) =>
                  (y, if x == y then { v with isExported := true } else v) }
            let r ← attempt (runNamed fuel isTested text arguments)
            for (x, v) in old.reverse do restore x v
            match r with
            | .ok status => return status
            | .error ending => throw ending

/-- Runs a command by its name. -/
def runNamed : Nat → Bool → String → List Octets → Running Nat
  | 0, _, _, _ => throw .stopped
  | fuel + 1, isTested, name, arguments => do
    if specialBuiltins.contains name then runBuiltin fuel isTested name arguments
    else match (← getProcess).functions.lookup name with
      | some body => runFunction fuel isTested body arguments
      | none => runBuiltin fuel isTested name arguments

/-- Runs a function. -/
def runFunction : Nat → Bool → Command → List Octets → Running Nat
  | 0, _, _, _ => throw .stopped
  | fuel + 1, isTested, body, arguments => do
    let p ← getProcess
    if callLimit ≤ p.locals.length then
      abort s!"Maximum function recursion depth ({callLimit}) reached"
    modifyProcess fun q => { q with arguments, loops := 0, locals := [] :: q.locals }
    let r ← attempt (runCommand fuel isTested body)
    for (x, v) in ((← getProcess).locals.head?.getD []) do restore x v
    modifyProcess fun q => { q with arguments := p.arguments, loops := p.loops, locals := p.locals }
    match r with
    | .ok status => return status
    | .error (.returns status) => return status
    | .error ending => throw ending

/-- Runs a command of the shell, or else a program. -/
def runBuiltin : Nat → Bool → String → List Octets → Running Nat
  | 0, _, _, _ => throw .stopped
  | fuel + 1, isTested, name, arguments => do
    match name, arguments with
    | "eval", _ => runText fuel isTested "eval: " (arguments.intersperse [' ']).flatten
    | ".", [] => return 0
    | ".", path :: _ =>
      let path := Octets.toString path
      match (← files).read path with
      | .ok bytes =>
        match ← attempt (runText fuel isTested "" (Octets.ofBytes bytes)) with
        | .ok status => return status
        | .error (.returns status) => return status
        | .error ending => throw ending
      | .error _ =>
        abort (".: " ++ openFault "open" "No such file" path .missing)
    | "exec", _ =>
      match arguments with
      | program :: rest =>
        throw (.exits (← runProgram fuel "exec: " (Octets.toString program) rest))
      | [] => return 0
    | "command", ['-', 'v'] :: names => tellMeanings true names
    | "command", ['-', 'V'] :: names => tellMeanings false names
    | "command", program :: rest => runBuiltin fuel isTested (Octets.toString program) rest
    | "command", [] => return 0
    | "type", names => tellMeanings false names
    | _, _ =>
      match Builtin.find? name with
      | some builtin => builtin arguments
      | none => runProgram fuel "" name arguments

/-- Runs a program by its name or path; a message that there is none begins with a label. -/
def runProgram : Nat → String → String → List Octets → Running Nat
  | 0, _, _, _ => throw .stopped
  | fuel + 1, label, name, arguments => do
    let missing (status : Nat) (reason : String) : Running Nat := do
      report s!"{label}{name}: {reason}"
      return status
    if name.isEmpty then missing 127 "Permission denied"
    else if !name.toList.contains '/' then
      if isProgram name && searchesPrograms (← getProcess) then runKnown fuel name arguments
      else missing 127 "not found"
    else match programName? name with
      | some program =>
        if isProgram program then runKnown fuel program arguments else missing 127 "not found"
      | none =>
        match programText? (← files) name with
        | .ok script => runShell fuel (Octets.ofString name) arguments script
        | .error (status, reason) => missing status reason

/-- Runs a program that there is. -/
def runKnown : Nat → String → List Octets → Running Nat
  | 0, _, _ => throw .stopped
  | fuel + 1, name, arguments => do
    match Utility.find? name with
    | some work => runUtility work name arguments
    | none =>
      match name, arguments with
      | "printenv", names =>
        let p ← getProcess
        if names.isEmpty then
          for line in environmentLines p do discard (write 1 (line ++ ['\n']))
          return 0
        let values := names.map fun x => (Json.lookup (Octets.toString x) p.bindings).bind fun v =>
          if v.isExported then v.value? else none
        for value in values.filterMap id do discard (write 1 (value ++ ['\n']))
        return if values.all Option.isSome then 0 else 1
      | "env", _ => runEnv fuel arguments
      | "sh", ['-', 'c'] :: script :: rest =>
        runShell fuel (rest.head?.getD ['s', 'h']) (rest.drop 1) script
      | "sh", ['-', 'e', 'c'] :: script :: rest =>
        runShell fuel (rest.head?.getD ['s', 'h']) (rest.drop 1) ("set -e;".toList ++ script)
      | "sh", path :: rest =>
        match (← files).read (Octets.toString path) with
        | .ok bytes => runShell fuel path rest (Octets.ofBytes bytes)
        | .error e =>
          let message := openFault "open" "No such file" (Octets.toString path) e
          discard (write 2 (Octets.ofString s!"sh: 0: {message}\n"))
          return 2
      | "sh", [] =>
        let input := (← remaining? 0).getD []
        consume 0 input.length
        runShell fuel ['s', 'h'] [] input
      | "dash", _ => runKnown fuel "sh" arguments
      | _, _ =>
        match Builtin.find? name with
        | some builtin => inSubshell (builtin arguments)
        | none => return 127

/-- Runs a program in a changed environment. -/
def runEnv : Nat → List Octets → Running Nat
  | 0, _ => throw .stopped
  | fuel + 1, arguments => do
    let isBare := arguments.head?.any fun a => a = ['-', 'i'] || a = ['-']
    let arguments := if isBare then arguments.drop 1 else arguments
    let changes := arguments.takeWhile (·.contains '=')
    let command := arguments.drop changes.length
    inSubshell do
      if isBare then modifyProcess fun p => { p with bindings := p.bindings.filter (!·.2.isExported) }
      for change in changes do
        let (x, value?) := Builtin.nameAndValue change
        modifyProcess (·.setVariable x ⟨value?, true, false⟩)
      match command with
      | [] =>
        for line in environmentLines (← getProcess) do discard (write 1 (line ++ ['\n']))
        return 0
      | name :: rest =>
        let program := Octets.toString name
        if !program.toList.contains '/' && !isProgram program then
          discard (write 2 (Octets.ofString s!"env: '{program}': No such file or directory\n"))
          return 127
        else runProgram fuel "" program rest

/-- Runs a script in a shell of its own; a signal that ends that one is reported. -/
def runShell : Nat → Octets → List Octets → Octets → Running Nat
  | 0, _, _, _ => throw .stopped
  | fuel + 1, name, arguments, script => do
    let outer ← getProcess
    let r ← attempt (inSubshell do
      modifyProcess fun p => p.freshShell name arguments
      runToEnd fuel (runText fuel false "" script))
    match r with
    | .error (.killed signal) =>
      modifyProcess fun _ => outer
      let text := ((Signal.ofNumber? signal).map (·.text)).getD ""
      if !text.isEmpty then discard (write 2 (Octets.ofString (text ++ "\n")))
      return 128 + signal
    | .ok status => return status
    | .error ending => throw ending

/-- Reads and runs a script line by line; messages about its text begin with a label. -/
def runText : Nat → Bool → String → Octets → Running Nat
  | 0, _, _, _ => throw .stopped
  | fuel + 1, isTested, label, script => do
    let line := (← getProcess).line
    let status ← runLines fuel isTested label { Source.start script with count := (← get).documents.length } 0
    modifyProcess fun p => { p with line }
    return status

def runLines : Nat → Bool → String → Source → Nat → Running Nat
  | 0, _, _, _, _ => throw .stopped
  | fuel + 1, isTested, label, source, last => do
    match readLine source with
    | .error (line, fault) =>
      modifyProcess fun p => { p with line }
      abort s!"{label}Syntax error: {fault.message}"
    | .ok (none, _) => return last
    | .ok (some command, rest) =>
      modify fun s => { s with documents := s.documents ++ rest.documents }
      let status ← runCommand fuel isTested command
      runLines fuel isTested label { rest with documents := [], count := (← get).documents.length } status

end

/-! ## Whole scripts -/

/-- How a script ended and what it left. -/
structure Finished where
  output : Octets
  errors : Octets
  /-- The status, unless a signal ended the shell. -/
  status? : Option Nat
  /-- Whether the time was up before the script ended. -/
  isStopped : Bool
  files : Files
  ms : Nat
  deriving Inhabited

/-- How many calls and turns of a loop a script may take. -/
def patience : Nat := 200000

/-- A shell that starts in the working directory of the files. -/
def Session.start (files : Files) (environment : List (String × String)) (stopAtMs : Option Nat) :
    Session :=
  let inherited := environment.filter fun (x, _) => isName x.toList && x != "PWD" && x != "IFS"
  let handed := inherited.map fun (x, s) => (x, Variable.mk (some (Octets.ofString s)) true false)
  let own : List (String × Variable) :=
    [("IFS", ⟨some [' ', '\t', '\n'], false, false⟩), ("OPTIND", ⟨some ['1'], false, false⟩),
      ("PS4", ⟨some ['+', ' '], false, false⟩), ("PPID", ⟨some ['1'], false, false⟩),
      ("PWD", ⟨some (Builtin.placePath files.base), true, false⟩)]
  { process :=
      { bindings := (handed ++ own).foldl (fun all (x, v) => Json.insertField x v all) []
        functions := [], name := ['s', 'h'], arguments := []
        descriptors := [(0, 0), (1, 1), (2, 2)]
        base := files.base, status := 0, options := [], traps := [], arrived := [], locals := []
        loops := 0, outputStatus? := none, line := 1, lastJob? := none }
    root := files.root, streams := #[.nothing, .sink [], .sink []]
    documents := [], jobs := [], clockMs := 0, stopAtMs }

/-- Runs a script to its end, and waits for what still holds its outputs. -/
def runScript (files : Files) (environment : List (String × String)) (stopAtMs : Option Nat)
    (script : Octets) : Finished :=
  let all : Running (Option Nat) := do
    let status? ← match ← attempt (runToEnd patience (runText patience false "" script)) with
      | .ok status => pure (some status)
      | .error (.killed _) => pure none
      | .error ending => throw ending
    for job in (← get).jobs do
      let now := (← get).clockMs
      if job.holdsOutputs && now < job.endsAtMs then pass (job.endsAtMs - now)
    return status?
  let (r, shell) := (do return (← all, ← contents 1, ← contents 2)).run.run
    (Session.start files environment stopAtMs)
  let files : Files := { files with root := shell.root }
  match r with
  | .ok (status?, output, errors) =>
    { output, errors, status?, isStopped := false, files, ms := shell.clockMs }
  | .error _ => { output := [], errors := [], status? := none, isStopped := true, files, ms := shell.clockMs }

end TestBench.Shell
