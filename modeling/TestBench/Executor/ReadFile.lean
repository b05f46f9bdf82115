import TestBench.Digest
import TestBench.Discovery
import TestBench.Executor.Machine
import TestBench.Json.Reader
/-
  The executor that reads files.

  1. The path starts from the directory of the suite.  A directory stands for all files directly inside
     it, anything else is a pattern; it is an error if there is no file.
  2. The result has the contents of all files one after another, and for each file its digest, size,
     time and mode under its name below the directory of the suite.  Contents that are a JSON object or
     array are given as such too.
  3. An error does not fail the call but is a part of its result.
-/
namespace TestBench

open TestBench.Text

/-- The parameters of a step that reads files. -/
structure ReadFile where
  path : String
  deriving Repr, DecidableEq, Inhabited

/-- What was read so far. -/
structure FilesRead where
  content : String
  digests : List (String × Json)
  sizes : List (String × Json)
  times : List (String × Json)
  modes : List (String × Json)
  error? : Option String
  deriving Repr, Inhabited

namespace FilesRead

def none : FilesRead := ⟨"", [], [], [], [], .none⟩

/-- Adds a file under its name.  Trees keep no times, so each file was changed at the beginning of
    time. -/
def add (r : FilesRead) (name : String) (bytes : Utf8.Bytes) (mode : Nat) : FilesRead :=
  { r with
    content := r.content ++ String.ofList (Utf8.decodeLossy bytes)
    digests := Json.insertField name (.text (Digest.md5Text bytes)) r.digests
    sizes := Json.insertField name (.nat bytes.length) r.sizes
    times := Json.insertField name (.nat 0) r.times
    modes := Json.insertField name (.text (String.ofList (Nat.toDigits 8 mode))) r.modes }

/-- The contents as a JSON value, if they are an object or an array. -/
def contentJson? (r : FilesRead) : Option Json :=
  match Json.parseSorted? r.content with
  | some (.object fields) => some (.object fields)
  | some (.array items) => some (.array items)
  | _ => .none

/-- The result of the call. -/
def result (r : FilesRead) : Json :=
  let json := match r.error?, r.contentJson? with
    | .none, some j => [("contentjson", j)]
    | _, _ => []
  .object ([("content", .text r.content)] ++ json ++ (r.error?.map fun e => ("err", .text e)).toList
    ++ [("md5sum", .object r.digests), ("size", .object r.sizes), ("modtime", .object r.times),
      ("mod", .object r.modes)] ++ timeFields shortestCallMs)

end FilesRead

namespace ReadFile

def name : String := "readfile"

def decode (step : Step) : Except Refusal ReadFile :=
  step.parameters
    [{ name := "path", read := fun v _ => v.asText.map ReadFile.mk }] ⟨""⟩

/-- The files that a path from the directory of the suite stands for. -/
def targets (files : Files) (target : String) : Except String (List String) := do
  let found ← (if files.isDirectory target then filesIn files target none
    else expandPattern files target).mapError DiscoveryError.message
  if found.isEmpty then .error s!"Invalid path '{target}' or file not found" else return found

/-- Reads files one after another, up to the first that cannot be read. -/
def readAll (files : Files) (workdir : String) : List String → FilesRead → FilesRead
  | [], r => r
  | path :: rest, r =>
    match files.node path with
    | .error e => { r with error? := some s!"Error while reading file {path}: {e.message}" }
    | .ok (.file bytes mode) =>
      readAll files workdir rest (r.add ((Path.below? workdir path).getD path) bytes mode)
    | .ok _ =>
      { r with error? := some s!"Error while reading file {path}: {FileError.isDirectory.message}" }

/-- What a step reads. -/
def read (p : ReadFile) (call : Call) (files : Files) : FilesRead :=
  match targets files (Path.join call.workdir (call.aliases.expand p.path)) with
  | .error e => { FilesRead.none with error? := some e }
  | .ok paths => readAll files call.workdir paths FilesRead.none

def outcome (p : ReadFile) (call : Call) (files : Files) : Outcome :=
  if (trim p.path.toList).isEmpty then .error (.invocation "Invalid path")
  else .ok (Observed.ofJson (p.read call files).result)

def executor (p : ReadFile) : Executor Machine where
  defaults := some ["result.err ShouldNotExist"]
  start := fun call machine => (.prompt (p.outcome call machine.files), machine)

end ReadFile
end TestBench
