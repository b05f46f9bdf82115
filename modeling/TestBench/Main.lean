import Std.Time.DateTime.Timestamp
import TestBench.Program
/-
  The command line.

  1. The program sees the files below the working directory, and those that its arguments and the
     standard places name, as they are at the start (`readMachine`).  Scripts run in the shell of this
     library, on these files.
  2. When the program ends, the files that it made or changed are written, and those that it removed
     are removed (`writeChanges`).
-/
namespace TestBench.Main

open TestBench.Text

/-! ## Reading -/

/-- The pieces of an absolute path. -/
def placeOf (path : String) : Place := (Files.pieces path).filter (· ≠ "")

def pathOf (place : Place) : String := "/" ++ String.intercalate "/" place

def bytesOf (data : ByteArray) : Utf8.Bytes := data.toList

/-- What is at an entry of a directory. -/
partial def readEntry (entry : IO.FS.DirEntry) : IO FileNode := do
  if ← entry.path.isDir then
    let entries ← entry.path.readDir
    let nodes ← entries.toList.mapM fun e => do return (e.fileName, ← readEntry e)
    return .directory (Json.sortFields nodes)
  else return .file (bytesOf (← IO.FS.readBinFile entry.path)) FileNode.standardMode

/-- Adds a file by its path, if there is one. -/
def addPath (root : FileNode) (path : String) : IO FileNode := do
  if !Path.isAbsolute path then return root
  try
    let data ← IO.FS.readBinFile path
    return (FileNode.file (bytesOf data) FileNode.standardMode).put root (placeOf path)
  catch _ => return root

/-- The variables that the program and its scripts see. -/
def variableNames : List String := ["HOME", "PATH"] ++ Overrides.variableNames

def readMachine (arguments : List String) : IO Machine := do
  let environment ← variableNames.filterMapM fun name => do
    return (← IO.getEnv name).map (name, ·)
  let here ← IO.currentDir
  let base := placeOf here.toString
  let entries ← here.readDir
  let nodes ← entries.toList.mapM fun e => do return (e.fileName, ← readEntry e)
  let root := (FileNode.directory (Json.sortFields nodes)).put .empty base
  let named := arguments ++ environment.map (·.2)
    ++ Config.standardPaths.map (Config.expandHome (Variables.home? environment none))
  return { files := ⟨← named.foldlM addPath root, base⟩, environment }

/-! ## Writing -/

mutual

/-- The directories and files of a tree, each directory before what is in it. -/
def places : FileNode → Place → List (Place × Option Utf8.Bytes)
  | .file bytes _, place => [(place, some bytes)]
  | .link _, _ => []
  | .directory entries, place => (place, none) :: entryPlaces entries place

def entryPlaces : List (String × FileNode) → Place → List (Place × Option Utf8.Bytes)
  | [], _ => []
  | (name, node) :: rest, place => places node (place ++ [name]) ++ entryPlaces rest place

end

/-- Makes the files on disk what the program left. -/
def writeChanges (old new : FileNode) : IO Unit := do
  for (place, content?) in places new [] do
    match content? with
    | none => if (old.at? place).isNone then IO.FS.createDirAll (pathOf place)
    | some bytes =>
      match old.at? place with
      | some (.file before _) =>
        if before ≠ bytes then IO.FS.writeBinFile (pathOf place) ⟨bytes.toArray⟩
      | _ => IO.FS.writeBinFile (pathOf place) ⟨bytes.toArray⟩
  for (place, content?) in places old [] do
    if content?.isSome && (new.at? place).isNone then IO.FS.removeFile (pathOf place)

end TestBench.Main

open TestBench TestBench.Main in
def main (arguments : List String) : IO UInt32 := do
  let machine ← readMachine arguments
  let now ← Std.Time.Timestamp.now
  let startedAt : Timestamp := ⟨now.toSecondsSinceUnixEpoch.toInt, 0⟩
  let exit := program arguments startedAt machine
  IO.print exit.output
  match exit.complaint with
  | .nothing => pure ()
  | .usage _ => IO.eprintln s!"error: {CommandLine.Level.top.usage}"
  | .error message => IO.eprintln s!"Error: {message}"
  writeChanges machine.files.root exit.machine.files.root
  return UInt32.ofNat exit.code
