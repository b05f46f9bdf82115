import TestBench.Decode.Suite
import TestBench.Files.Walk
import TestBench.Glob.Reader
/-
  Discovery: the suite files that a path or a pattern stands for.

  1. A directory stands for the files directly inside it that have the extension of suites; anything
     else is a pattern.
  2. A pattern without glob marks stands for itself, if it is a file.  Otherwise a walk starts at the
     segments in front of the first mark, no deeper than the pattern has segments unless it holds
     `**`, and keeps the files that the pattern accepts in their spelling.
  3. Files come sorted by path, segment by segment.

  A directory that may not be listed would be refused where it is named, and passed over where a walk
  comes to it.  Trees have no such directories.
-/
namespace TestBench

/-- Why nothing can be discovered. -/
inductive DiscoveryError where
  | pattern (pattern : String) (cause : GlobError)
  | directory (path : String) (cause : FileError)
  deriving Repr, DecidableEq, Inhabited

/-- The text of the cause alone. -/
def DiscoveryError.cause : DiscoveryError → String
  | pattern p e => e.message p
  | directory _ e => e.message

def DiscoveryError.message : DiscoveryError → String
  | pattern p e => s!"Invalid pattern '{p}': {e.message p}"
  | directory p e => s!"Cannot read directory {p}: {e.message}"

/-! ## Directories -/

/-- The extension of suite files. -/
def suiteExtension : String := "yml"

def sortPaths (paths : List String) : List String := paths.mergeSort Path.le

/-- The files directly inside a directory, all of them or those with an extension. -/
def filesIn (files : Files) (directory : String) (extension? : Option String) :
    Except DiscoveryError (List String) :=
  match files.list directory with
  | .error e => .error (.directory directory e)
  | .ok entries =>
    .ok (sortPaths ((entries.map fun (name, _) => Path.join directory name).filter fun path =>
      files.isFile path && extension?.all fun extension => Path.extension? path == some extension))

/-! ## Patterns -/

def isGlobMark (c : Char) : Bool := c = '*' || c = '?' || c = '[' || c = '\x7b'

def hasGlobMark (text : String) : Bool := text.toList.any isGlobMark

/-- Whether a segment is spelled without glob marks. -/
def isLiteral : Segment → Bool
  | .name text => !hasGlobMark text
  | _ => true

/-- The segments in front of the first one with a mark. -/
def literalSegments (pattern : String) : List Segment := (Path.segments pattern).takeWhile isLiteral

/-- The path that segments spell. -/
def spell (segments : List Segment) : String :=
  segments.foldl (fun path segment => match segment with
    | .root => "/"
    | segment => Path.join path (Path.segmentText segment)) ""

/-- How deep the walk of a pattern goes; `**` sets no limit. -/
def walkDepth? (pattern : String) : Option Nat :=
  if Text.occursIn ['*', '*'] pattern.toList then none
  else some ((Path.segments pattern).length - (literalSegments pattern).length)

/-- The files from the walk of a pattern, spelled as the pattern spells them. -/
def candidates (files : Files) (pattern : String) : List String :=
  let start := spell (literalSegments pattern)
  if start.isEmpty then
    (files.walk (walkDepth? pattern) ".").map fun path => (Path.below? "." path).getD path
  else files.walk (walkDepth? pattern) start

/-- The files that a pattern stands for. -/
def expandPattern (files : Files) (pattern : String) : Except DiscoveryError (List String) :=
  match Glob.ofText pattern with
  | .error e => .error (.pattern pattern e)
  | .ok glob =>
    if hasGlobMark pattern then
      .ok (sortPaths ((candidates files pattern).filter glob.accepts))
    else .ok (if files.isFile pattern then [pattern] else [])

/-- The suite files that a path stands for. -/
def discover (files : Files) (path : String) : Except DiscoveryError (List String) :=
  if files.isDirectory path then filesIn files path (some suiteExtension)
  else expandPattern files path

/-! ## Loading -/

/-- Why a suite file is dropped. -/
inductive LoadError where
  | read (path : String) (cause : FileError)
  | content (path : String) (cause : Refusal)
  deriving Repr, DecidableEq, Inhabited

/-- What a caller is told who loads one file.  A run says it in the log only, and goes on. -/
def LoadError.message : LoadError → String
  | read path e => s!"Error while reading file {path}: {e.message}"
  | content path _ => s!"Error while unmarshal file {path}"

/-- Reads and decodes a suite file. -/
def loadSuite (files : Files) (path : String) : Except LoadError Suite :=
  match files.readText path with
  | .error e => .error (.read path e)
  | .ok text =>
    match Suite.ofYaml text with
    | .error e => .error (.content path e)
    | .ok s => .ok (s.prepare path)

end TestBench
