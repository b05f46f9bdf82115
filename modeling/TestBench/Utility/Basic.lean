import TestBench.Files.Lookup
import TestBench.Shell.Octets
/-
  Programs that scripts call: what one is given, and what it does.

  1. A program has arguments, an input and files; it writes to its output and its error output in some
     order, changes files, takes time and ends with a status (`Effects`).
  2. Options stand in front of operands or between them, one letter each, several letters in one
     argument; some take a value (`readOptions`).
-/
namespace TestBench.Utility

open TestBench.Shell (Octets)
open TestBench.Text (Utf8.Bytes)

/-- What a program is given. -/
structure Job where
  name : String
  arguments : List Octets
  input : Octets
  /-- Whether the input is a file and no pipe. -/
  inputIsFile : Bool
  deriving Inhabited

/-- What a program did so far. -/
structure Effects where
  /-- What was written and to which descriptor, the last piece first. -/
  written : List (Nat × Octets)
  status : Nat
  files : Files
  ms : Nat
  /-- Whether the input was used up. -/
  usedInput : Bool
  deriving Inhabited

abbrev Work := ReaderT Job (StateM Effects)

def write (s : Octets) : Work Unit := modify fun e => { e with written := (1, s) :: e.written }

def writeText (s : String) : Work Unit := write (Octets.ofString s)

def writeLine (s : Octets) : Work Unit := write (s ++ ['\n'])

/-- The status of the program so far; what went wrong before counts if it was worse. -/
def setStatus (status : Nat) : Work Unit := modify fun e => { e with status := max status e.status }

/-- Writes a line to the error output. -/
def writeError (line : String) : Work Unit :=
  modify fun e => { e with written := (2, Octets.ofString (line ++ "\n")) :: e.written }

/-- Writes an error message behind the name of the program, which fails with a status. -/
def fail (status : Nat) (message : String) : Work Unit := do
  writeError s!"{(← read).name}: {message}"
  setStatus status

/-- Writes an error message for something that went wrong in the usual way. -/
def complain (message : String) : Work Unit := fail 1 message

/-- Points at the help of a program that was called in a wrong way. -/
def pointAtHelp : Work Unit := do
  writeError s!"Try '{(← read).name} --help' for more information."

/-- Fails because of how the program was called. -/
def misuse (status : Nat) (message : String) : Work Unit := do
  fail status message
  pointAtHelp

/-! ## Options -/

inductive OptionFault where
  | unknown (letter : Char)
  | missingValue (letter : Char)
  | unknownWord (word : Octets)
  deriving Repr, DecidableEq, Inhabited

def OptionFault.message : OptionFault → String
  | unknown letter => s!"invalid option -- '{letter}'"
  | missingValue letter => s!"option requires an argument -- '{letter}'"
  | unknownWord word => s!"unrecognized option '{Octets.toString word}'"

structure Options where
  /-- The letters with their values, in order. -/
  given : List (Char × Octets)
  operands : List Octets
  deriving Repr, DecidableEq, Inhabited

namespace Options

def has (o : Options) (letter : Char) : Bool := o.given.any (·.1 = letter)

/-- The last value of an option. -/
def value? (o : Options) (letter : Char) : Option Octets :=
  (o.given.reverse.find? (·.1 = letter)).map (·.2)

/-- Puts options in front. -/
def addFront (given : List (Char × Octets)) (o : Options) : Options :=
  { o with given := given ++ o.given }

end Options

/-- The letters of one argument, and whether the last one wants its value from the next. -/
def clusterOptions (plain valued : String) : Octets → Except OptionFault (List (Char × Octets) × Option Char)
  | [] => .ok ([], none)
  | c :: rest =>
    if plain.toList.contains c then
      (clusterOptions plain valued rest).map fun (given, open?) => ((c, []) :: given, open?)
    else if valued.toList.contains c then
      if rest.isEmpty then .ok ([], some c) else .ok ([(c, rest)], none)
    else .error (.unknown c)

/-- Reads arguments as options of these letters and operands. -/
def readOptions (plain valued : String) : List Octets → Except OptionFault Options
  | [] => .ok ⟨[], []⟩
  | ['-', '-'] :: rest => .ok ⟨[], rest⟩
  | ('-' :: '-' :: word) :: _ => .error (.unknownWord ('-' :: '-' :: word))
  | ('-' :: c :: letters) :: rest => do
    let (given, open?) ← clusterOptions plain valued (c :: letters)
    match open? with
    | none => return (← readOptions plain valued rest).addFront given
    | some c =>
      match rest with
      | value :: rest =>
        return (← readOptions plain valued rest).addFront (given ++ [(c, value)])
      | [] => throw (.missingValue c)
  | operand :: rest => do
    let o ← readOptions plain valued rest
    return { o with operands := operand :: o.operands }

/-- Works with the options, or fails because of them with a status. -/
def withOptions (status : Nat) (plain valued : String) (work : Options → Work Unit) : Work Unit := do
  match readOptions plain valued (← read).arguments with
  | .ok options => work options
  | .error fault => misuse status fault.message

/-! ## Inputs -/

/-- Uses up the input. -/
def takeInput : Work Octets := do
  modify fun e => { e with usedInput := true }
  return (← read).input

/-- The bytes of a named file; a dash names the input. -/
def contentOf (name : Octets) : Work (Except FileError Octets) := do
  if name = ['-'] then return .ok (← takeInput)
  let path := Octets.toString name
  if path == "/dev/null" then return .ok []
  return ((← get).files.read path).map Octets.ofBytes

/-- The bytes of all named files, or the input if none is named. -/
def contentsOf (names : List Octets) : Work Octets := do
  if names.isEmpty then return ← takeInput
  let mut all := []
  for name in names do
    match ← contentOf name with
    | .ok s => all := s :: all
    | .error e => complain s!"{Octets.toString name}: {e.text}"
  return all.reverse.flatten

/-- Tries to change the files. -/
def tryFiles (what : String) (result : Files → Except FileError Files) : Work Unit := do
  match result (← get).files with
  | .ok files => modify fun e => { e with files }
  | .error e => complain s!"{what}: {e.text}"

/-- The bytes as the lines end them. -/
def unlines (lines : List Octets) : Octets := lines.flatMap (· ++ ['\n'])

end TestBench.Utility
