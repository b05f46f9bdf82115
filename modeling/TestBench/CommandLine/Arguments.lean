import TestBench.CommandLine.Rule
import TestBench.Text.Whole
/-
  Reading the command line.

  1. Arguments are read from left to right.  In front of the command only the options of all commands
     may stand; behind it its own options too, and a path.
  2. A value stands in the same argument, behind a letter or an equals sign, or it is the next
     argument.  An argument that begins with a dash is never such a value, and `--` ends the options.
  3. A value that waits in the next argument is judged when something else is read, unless that is at
     fault itself (`Reading.settle`).
-/
namespace TestBench.CommandLine

/-- Why the arguments are not what the program can do. -/
inductive UsageError where
  | unknownArgument
  | unknownCommand
  | invalidValue
  | missingValue
  | repeatedArgument
  | needlessValue
  | missingCommand
  | nothingGiven
  /-- Help was asked for: of a level, or of the help itself. -/
  | help (level? : Option Level)
  | version
  deriving Repr, DecidableEq, Inhabited

/-- What to run and how, as far as the arguments say. -/
structure RunArguments where
  path : String
  aliases : List String
  parallel : Option Nat
  details : Option String
  format : Option String
  output : Option String
  timeout : Option Nat
  delayFirstRetry : Bool
  deriving Repr, DecidableEq, Inhabited

inductive Command where
  | run (arguments : RunArguments)
  | list (path : String)
  | schema
  deriving Repr, DecidableEq, Inhabited

structure Arguments where
  logLevel : Option String
  config : Option String
  command : Command
  deriving Repr, DecidableEq, Inhabited

/-! ## What is read -/

/-- A value of an option. -/
inductive Value where
  | none
  | text (s : String)
  | number (n : Nat)
  deriving Repr, DecidableEq, Inhabited

/-- What was read at one level so far. -/
structure Reading where
  /-- Options with their values, in order. -/
  given : List (OptionKey × Value)
  /-- An option whose value is to come in an argument of its own, or has come but was not judged. -/
  pending : Option (OptionRule × Option String)
  path : Option String
  /-- Whether the options are at their end. -/
  isEnded : Bool
  deriving Repr, Inhabited

namespace Reading

def start : Reading := ⟨[], none, none, false⟩

def has (r : Reading) (key : OptionKey) : Bool := r.given.any (·.1 = key)

/-- A value as its option wants it. -/
def valueOf (kind : ValueKind) (s : String) : Except UsageError Value :=
  match kind with
  | .text => .ok (.text s)
  | .number =>
    match Text.word64 s.toList with
    | some n => .ok (.number n)
    | none => .error .invalidValue

/-- Takes an option with its value. -/
def take (r : Reading) (o : OptionRule) (s : Option String) : Except UsageError Reading := do
  if r.has o.key && !o.isRepeatable then throw .repeatedArgument
  let value ← match o.value?, s with
    | some (kind, _), some s => valueOf kind s
    | _, _ => pure .none
  return { r with given := r.given ++ [(o.key, value)] }

/-- Judges the value that waits. -/
def settle (r : Reading) : Except UsageError Reading :=
  match r.pending with
  | none => .ok r
  | some (_, none) => .error .missingValue
  | some (o, some s) => { r with pending := none }.take o (some s)

/-- Meets an option, with the text that stands behind it in its argument. -/
def meet (r : Reading) (level : Level) (o : OptionRule) (attached : Option String) :
    Except UsageError Reading := do
  let r ← r.settle
  match o.value?, attached with
  | some _, some s => r.take o (some s)
  | some _, none => return { r with pending := some (o, none) }
  | none, _ =>
    match o.key with
    | .help => throw (.help (some level))
    | .version => throw .version
    | _ => r.take o none

/-- Meets an argument with two dashes. -/
def long (r : Reading) (level : Level) (argument : List Char) : Except UsageError Reading :=
  let name := argument.takeWhile (· ≠ '=')
  let attached := if name.length < argument.length then
      some (String.ofList (argument.drop (name.length + 1)))
    else none
  match level.options.find? (·.long == String.ofList name) with
  | none => .error .unknownArgument
  | some o =>
    if o.value?.isNone && attached.isSome then .error .needlessValue else r.meet level o attached

/-- Meets letters behind one dash; a letter that takes a value takes what is behind it. -/
def letters (level : Level) : List Char → Reading → Except UsageError Reading
  | [], r => .ok r
  | c :: rest, r =>
    match level.options.find? (·.letter? = some c) with
    | none => .error .unknownArgument
    | some o =>
      if o.value?.isNone then do letters level rest (← r.meet level o none)
      else match rest with
        | [] => r.meet level o none
        | '=' :: value => r.meet level o (some (String.ofList value))
        | value => r.meet level o (some (String.ofList value))

/-- Whether the next argument is a value, unless it is an option. -/
def awaitsValue (r : Reading) : Bool :=
  match r.pending with
  | some (_, none) => true
  | _ => false

/-- Meets an argument that is neither an option nor a command. -/
def plain (r : Reading) (level : Level) (argument : String) : Except UsageError Reading := do
  if level.takesPath && r.path.isNone then return { (← r.settle) with path := some argument }
  else throw (if level = .top then .unknownCommand else .unknownArgument)

/-- Meets an argument; the name of a command has been looked for before. -/
def argument (r : Reading) (level : Level) (text : String) : Except UsageError Reading :=
  if r.isEnded then r.plain level text
  else match text.toList with
    | ['-', '-'] => .ok { r with isEnded := true }
    | '-' :: '-' :: rest => r.long level rest
    | '-' :: c :: rest => letters level (c :: rest) r
    | _ =>
      match r.pending with
      | some (o, none) => .ok { r with pending := some (o, some text) }
      | _ => r.plain level text

/-! ## What it means -/

def text? (r : Reading) (key : OptionKey) : Option String :=
  r.given.findSome? fun (k, v) => match v with
    | .text s => if k = key then some s else none
    | _ => none

def number? (r : Reading) (key : OptionKey) : Option Nat :=
  r.given.findSome? fun (k, v) => match v with
    | .number n => if k = key then some n else none
    | _ => none

def texts (r : Reading) (key : OptionKey) : List String :=
  r.given.filterMap fun (k, v) => match v with
    | .text s => if k = key then some s else none
    | _ => none

/-- The command that was read. -/
def command (r : Reading) (level : Level) : Command :=
  let path := r.path.getD standardPath
  match level with
  | .list => .list path
  | .schema => .schema
  | _ =>
    .run
      { path, aliases := r.texts .alias, parallel := r.number? .parallel, details := r.text? .details
        format := r.text? .format, output := r.text? .output, timeout := r.number? .timeout
        delayFirstRetry := r.has .delayFirstRetry }

end Reading

/-! ## Levels -/

/-- Reads the arguments behind a command. -/
def readCommand (level : Level) (arguments : List String) : Except UsageError Reading := do
  (← arguments.foldlM (fun r a => r.argument level a) Reading.start).settle

/-- The answer to a question for help. -/
def explain : List String → UsageError
  | [] => .help (some .top)
  | [name] =>
    match Level.ofName? name with
    | some level => .help (some level)
    | none => if name == helpCommand then .help none else .unknownCommand
  | _ => .unknownCommand

/-- Reads the arguments in front of the command, and then the command. -/
def readTop (r : Reading) : List String → Except UsageError Arguments
  | [] => do
    let r ← r.settle
    throw (if r.given.isEmpty then .nothingGiven else .missingCommand)
  | a :: rest => do
    let isCommand := a == helpCommand || (Level.ofName? a).isSome
    if isCommand && r.isEnded then throw .unknownArgument
    else if isCommand && !r.awaitsValue then
      match Level.ofName? a with
      | none => throw (explain rest)
      | some level =>
        let inner ← readCommand level rest
        let outer ← r.settle
        let last (key : OptionKey) : Option String := (inner.text? key) <|> (outer.text? key)
        return { logLevel := last .logLevel, config := last .config, command := inner.command level }
    else readTop (← r.argument .top a) rest

/-- Reads the arguments of the program. -/
def read (arguments : List String) : Except UsageError Arguments := readTop Reading.start arguments

end TestBench.CommandLine
