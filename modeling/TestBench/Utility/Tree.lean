import TestBench.Utility.Basic
/-
  Programs that work on the tree of files: `ls`, `mkdir`, `rmdir`, `rm`, `mv`, `cp`, `touch`, `ln`,
  `readlink` and `chmod`.
-/
namespace TestBench.Utility

open TestBench.Shell (Octets linesOf)

/-! ## Places -/

/-- Where a path leads if a link at its end is not followed. -/
def spotOf (files : Files) (path : String) : Except FileError Spot := do
  let s := path.toList
  let s := (s.reverse.dropWhile (· = '/')).reverse
  let name := (s.reverse.takeWhile (· ≠ '/')).reverse
  let directory := String.ofList (s.take (s.length - name.length))
  let name := String.ofList name
  if name = "" ∨ name = "." ∨ name = ".." then files.locate path
  else
    let spot ← files.locate (if directory.isEmpty then "." else directory)
    match spot.node? with
    | some (.directory entries) => return ⟨spot.place ++ [name], Json.lookup name entries⟩
    | some _ => .error .notDirectory
    | none => .error .missing

/-- The last name of a path. -/
def lastName (path : String) : String :=
  let s := (path.toList.reverse.dropWhile (· = '/')).reverse
  String.ofList ((s.reverse.takeWhile (· ≠ '/')).reverse)

/-- The path of what a source becomes in a target, which may be a directory. -/
def destination (files : Files) (source target : String) : String :=
  if files.isDirectory target then
    (if target.endsWith "/" then target else target ++ "/") ++ lastName source
  else target

/-! ## Listing -/

def ls : Work Unit :=
  withOptions 2 "1aAdrF" "" fun o => do
    let files := (← get).files
    let names := if o.operands.isEmpty then ["."] else o.operands.map Octets.toString
    let ordered (names : List String) : List String := if o.has 'r' then names.reverse else names
    let names := ordered (names.mergeSort fun a b => a ≤ b)
    for name in names do
      match spotOf files name with
      | .ok ⟨_, some _⟩ => pure ()
      | .ok ⟨_, none⟩ => fail 2 s!"cannot access '{name}': {FileError.missing.text}"
      | .error e => fail 2 s!"cannot access '{name}': {e.text}"
    let found := names.filter fun name => ((spotOf files name).toOption.bind (·.node?)).isSome
    let isShownWhole (name : String) : Bool := o.has 'd' || !files.isDirectory name
    let plain := found.filter isShownWhole
    let mark (path : String) : String := if o.has 'F' && files.isDirectory path then "/" else ""
    for name in plain do writeText s!"{name}{mark name}\n"
    let mut isFirst := plain.isEmpty
    for name in found.filter (!isShownWhole ·) do
      if !isFirst then writeText "\n"
      if names.length > 1 then writeText s!"{name}:\n"
      isFirst := false
      let entries := ((files.list name).toOption.getD []).map (·.1)
      let entries := if o.has 'a' then "." :: ".." :: entries else entries
      let isHidden (entry : String) : Bool := entry.startsWith "."
      let entries := if o.has 'a' || o.has 'A' then entries else entries.filter (!isHidden ·)
      for entry in ordered entries do writeText s!"{entry}{mark (Path.join name entry)}\n"

def readlink : Work Unit :=
  withOptions 1 "fn" "" fun o => do
    let files := (← get).files
    for name in o.operands do
      match spotOf files (Octets.toString name) with
      | .ok ⟨_, some (.link target)⟩ => writeText s!"{target}\n"
      | _ => setStatus 1

/-! ## Making -/

/-- Makes a directory, and those before it that are missing. -/
def makePath (files : Files) (path : String) : Except FileError Files :=
  let pieces := (Files.pieces path).filter (· ≠ "")
  (List.range pieces.length).foldlM (fun files i => do
    let front := String.intercalate "/" (pieces.take (i + 1))
    let path := if Path.isAbsolute path then "/" ++ front else front
    let spot ← files.locate path
    match spot.node? with
    | none => return files.put spot.place FileNode.empty
    | some (.directory _) => return files
    | some _ => .error (if i + 1 = pieces.length then .exists else .notDirectory)) files

def mkdir : Work Unit :=
  withOptions 1 "p" "m" fun o => do
    if o.operands.isEmpty then misuse 1 "missing operand"
    for name in o.operands do
      let path := Octets.toString name
      tryFiles s!"cannot create directory '{path}'" fun files => do
        if o.has 'p' then makePath files path
        else
          let spot ← spotOf files path
          if spot.node?.isSome then .error .exists else return files.put spot.place FileNode.empty

def rmdir : Work Unit :=
  withOptions 1 "p" "" fun o => do
    if o.operands.isEmpty then misuse 1 "missing operand"
    for name in o.operands do
      let path := Octets.toString name
      tryFiles s!"failed to remove '{path}'" fun files => do
        let spot ← spotOf files path
        match spot.node? with
        | some (.directory []) => return { files with root := files.root.remove spot.place }
        | some (.directory _) => .error .notEmpty
        | some _ => .error .notDirectory
        | none => .error .missing

def touch : Work Unit :=
  withOptions 1 "acm" "drt" fun o => do
    if o.operands.isEmpty then misuse 1 "missing file operand"
    for name in o.operands do
      let path := Octets.toString name
      tryFiles s!"cannot touch '{path}'" fun files => do
        let spot ← files.locate path
        if spot.node?.isSome || o.has 'c' then return files
        else return files.put spot.place (.file [] FileNode.standardMode)

def ln : Work Unit :=
  withOptions 1 "sfn" "" fun o => do
    match o.operands.map Octets.toString with
    | [] => misuse 1 "missing file operand"
    | target :: rest =>
      let path := destination (← get).files target (rest.head?.getD (lastName target))
      let kind := if o.has 's' then "symbolic" else "hard"
      tryFiles s!"failed to create {kind} link '{path}'" fun files => do
        let spot ← spotOf files path
        if spot.node?.isSome && !o.has 'f' then .error .exists
        else if o.has 's' then return files.put spot.place (.link target)
        else return files.put spot.place (← files.node target)

/-! ## Removing, moving, copying -/

def rm : Work Unit :=
  withOptions 1 "rRfiv" "" fun o => do
    if o.operands.isEmpty && !o.has 'f' then misuse 1 "missing operand"
    for name in o.operands do
      let path := Octets.toString name
      match spotOf (← get).files path with
      | .ok ⟨place, some node⟩ =>
        if node.isDirectory && !(o.has 'r' || o.has 'R') then
          complain s!"cannot remove '{path}': {FileError.isDirectory.text}"
        else modify fun e => { e with files := { e.files with root := e.files.root.remove place } }
      | .ok ⟨_, none⟩ =>
        if !o.has 'f' then complain s!"cannot remove '{path}': {FileError.missing.text}"
      | .error e =>
        if !o.has 'f' then complain s!"cannot remove '{path}': {e.text}"

/-- Does something with each source and its place in the target. -/
def transfer (sources : List String) (target : String) (one : String → String → Work Unit) :
    Work Unit := do
  if sources.length > 1 && !(← get).files.isDirectory target then
    complain s!"target '{target}' is not a directory"
  else for source in sources do
    one source (destination (← get).files source target)

/-- Reads the operands of a program with sources and a target. -/
def withTarget (o : Options) (one : String → String → Work Unit) : Work Unit := do
  match o.operands.map Octets.toString with
  | [] => misuse 1 "missing file operand"
  | [source] => misuse 1 s!"missing destination file operand after '{source}'"
  | operands => transfer operands.dropLast (operands.getLast?.getD "") one

def mv : Work Unit :=
  withOptions 1 "fnv" "" fun o => withTarget o fun source target => do
    match spotOf (← get).files source with
    | .ok ⟨place, some node⟩ =>
      tryFiles s!"cannot move '{source}' to '{target}'" fun files => do
        let spot ← spotOf files target
        if spot.place = place then return files
        else
          let files := { files with root := files.root.remove place }
          return files.put spot.place node
    | .ok ⟨_, none⟩ => complain s!"cannot stat '{source}': {FileError.missing.text}"
    | .error e => complain s!"cannot stat '{source}': {e.text}"

def cp : Work Unit :=
  withOptions 1 "rRafpv" "" fun o => withTarget o fun source target => do
    match (← get).files.node source with
    | .ok (.file bytes mode) =>
      tryFiles s!"cannot create regular file '{target}'" fun files => do
        let spot ← files.locate target
        let mode := match spot.node? with
          | some (.file _ mode) => mode
          | _ => mode
        return files.put spot.place (.file bytes mode)
    | .ok node =>
      if o.has 'r' || o.has 'R' || o.has 'a' then
        tryFiles s!"cannot create directory '{target}'" fun files => do
          let spot ← files.locate target
          return files.put spot.place node
      else complain s!"-r not specified; omitting directory '{source}'"
    | .error e => complain s!"cannot stat '{source}': {e.text}"

/-! ## Modes -/

/-- What a mode text makes of a mode: octal digits, or who, a sign and letters. -/
def changedMode? (text : List Char) (mode : Nat) : Option Nat :=
  if !text.isEmpty && text.all fun c => '0' ≤ c && c ≤ '7' then
    some (text.foldl (fun n c => 8 * n + (c.toNat - '0'.toNat)) 0)
  else
    let who := text.takeWhile "ugoa".toList.contains
    match text.drop who.length with
    | sign :: letters =>
      if !"+-=".toList.contains sign || !letters.all "rwx".toList.contains then none
      else
        let bits := (if letters.contains 'r' then 4 else 0) + (if letters.contains 'w' then 2 else 0)
          + (if letters.contains 'x' then 1 else 0)
        let everybody := who.isEmpty || who.contains 'a'
        let part (c : Char) (shift : Nat) : Nat :=
          if everybody || who.contains c then shift else 0
        let spread := 64 * part 'u' 1 + 8 * part 'g' 1 + part 'o' 1
        let wanted := bits * spread
        let others := mode - (mode &&& wanted)
        if sign = '+' then some (others + wanted)
        else if sign = '-' then some others
        else some (mode - (mode &&& (7 * spread)) + wanted)
    | [] => none

def chmod : Work Unit := do
  match (← read).arguments.map Octets.toString with
  | [] => misuse 1 "missing operand"
  | [mode] => misuse 1 s!"missing operand after '{mode}'"
  | mode :: names =>
    match changedMode? mode.toList 0 with
    | none => misuse 1 s!"invalid mode: '{mode}'"
    | some _ =>
      for path in names do
        tryFiles s!"cannot access '{path}'" fun files => do
          let spot ← files.locate path
          match spot.node? with
          | some (.file bytes old) =>
            return files.put spot.place (.file bytes ((changedMode? mode.toList old).getD old))
          | some _ => return files
          | none => .error .missing

end TestBench.Utility
