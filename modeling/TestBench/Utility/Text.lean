import TestBench.Shell.Arithmetic
import TestBench.Shell.Format
import TestBench.Shell.Pattern
import TestBench.Utility.Basic
/-
  Programs that pass text on: `cat`, `head`, `tail`, `wc`, `tr`, `sort`, `uniq`, `cut`, `tee`, `rev`,
  `tac`, `seq` and `yes`.
-/
namespace TestBench.Utility

open TestBench.Shell (Octets linesOf isSpace escape padBlanks)
open TestBench.Shell.Arithmetic (digitsValue wholeNumber?)

def cat : Work Unit :=
  withOptions 1 "nEu" "" fun o => do
    let mut line := 1
    for name in if o.operands.isEmpty then [['-']] else o.operands do
      match ← contentOf name with
      | .error e => complain s!"{Octets.toString name}: {e.text}"
      | .ok s =>
        if !o.has 'n' && !o.has 'E' then write s
        else
          let lines := linesOf s
          for text in lines, i in List.range lines.length do
            let isWhole := i + 1 < lines.length || s.getLast? = some '\n'
            let number := if o.has 'n' then padBlanks false 6 (Octets.ofNat line) ++ ['\t'] else []
            let mark := if o.has 'E' && isWhole then ['$'] else []
            write (number ++ text ++ mark ++ if isWhole then ['\n'] else [])
            line := line + 1

/-! ## Parts of files -/

/-- How much of a file is wanted. -/
structure Portion where
  amount : Nat
  /-- Whether the sign in front of the amount turns its meaning around. -/
  isTurned : Bool
  inBytes : Bool

/-- The pieces of a text, each with its line break. -/
def wholeLines (s : Octets) : List Octets :=
  let lines := linesOf s
  let ended := lines.map (· ++ ['\n'])
  if s.getLast? = some '\n' then ended else ended.dropLast ++ lines.getLast?.toList

def Portion.front (p : Portion) (s : Octets) : Octets :=
  let cut {α : Type} (units : List α) : List α :=
    units.take (if p.isTurned then units.length - p.amount else p.amount)
  if p.inBytes then cut s else (cut (wholeLines s)).flatten

def Portion.back (p : Portion) (s : Octets) : Octets :=
  let cut {α : Type} (units : List α) : List α :=
    units.drop (if p.isTurned then p.amount - 1 else units.length - p.amount)
  if p.inBytes then cut s else (cut (wholeLines s)).flatten

/-- The portion that the options ask for, or the text that is no amount. -/
def portion (turn : Char) (o : Options) : Except Octets Portion := do
  let (text, inBytes) := match o.value? 'c', o.value? 'n' with
    | some c, _ => (c, true)
    | none, some n => (n, false)
    | none, none => (['1', '0'], false)
  let (isTurned, digits) := match text with
    | c :: rest => if c = turn then (true, rest) else if c = '-' then (false, rest) else (false, text)
    | [] => (false, [])
  if digits.isEmpty || !digits.all Char.isDigit then throw text
  return ⟨digitsValue 10 digits, isTurned, inBytes⟩

/-- Writes a portion of each file, below a heading if there are several. -/
def portions (turn : Char) (take : Portion → Octets → Octets) : Work Unit := do
  let job ← read
  let arguments := match job.arguments with
    | ('-' :: d :: digits) :: rest =>
      if d.isDigit then ['-', 'n'] :: (d :: digits) :: rest else job.arguments
    | _ => job.arguments
  match readOptions "qv" "nc" arguments with
  | .error fault => misuse 1 fault.message
  | .ok o =>
    match portion turn o with
    | .error text =>
      let unit := if (o.value? 'c').isSome then "bytes" else "lines"
      complain s!"invalid number of {unit}: '{Octets.toString text}'"
    | .ok p =>
      let names := if o.operands.isEmpty then [['-']] else o.operands
      let heads := (names.length > 1 || o.has 'v') && !o.has 'q'
      let mut isFirst := true
      for name in names do
        let shown := if name = ['-'] then "standard input" else Octets.toString name
        let gap := if isFirst then "" else "\n"
        let content ← if name = "/dev/zero".toList then
          pure (.ok (List.replicate p.amount '\x00')) else contentOf name
        match content with
        | .error .isDirectory =>
          if heads then writeText s!"{gap}==> {shown} <==\n"
          complain s!"error reading '{shown}': Is a directory"
          isFirst := false
        | .error e => complain s!"cannot open '{shown}' for reading: {e.text}"
        | .ok s =>
          if heads then writeText s!"{gap}==> {shown} <==\n"
          write (take p s)
          isFirst := false

def head : Work Unit := portions '-' Portion.front

def tail : Work Unit := portions '+' Portion.back

/-! ## Counts -/

/-- The words of a text, between blanks. -/
def wordCount (s : Octets) : Nat :=
  (s.foldl (fun (n, inWord) c =>
    if isSpace c then (n, false) else (if inWord then n else n + 1, true)) (0, false)).1

def countsOf (o : Options) (s : Octets) : List Nat :=
  let all := o.given.isEmpty
  (if all || o.has 'l' then [(s.filter (· = '\n')).length] else [])
    ++ (if all || o.has 'w' then [wordCount s] else [])
    ++ (if o.has 'm' then [(Octets.toString s).length] else [])
    ++ (if all || o.has 'c' then [s.length] else [])

def wc : Work Unit :=
  withOptions 1 "lwcm" "" fun o => do
    let job ← read
    let mut rows : List (List Nat × Option Octets) := []
    let mut bytes := 0
    for name in if o.operands.isEmpty then [['-']] else o.operands do
      match ← contentOf name with
      | .error e =>
        complain s!"{Octets.toString name}: {e.text}"
        if e = .isDirectory then rows := (countsOf o [], some name) :: rows
      | .ok s =>
        bytes := bytes + s.length
        rows := (countsOf o s, if o.operands.isEmpty then none else some name) :: rows
    let total := rows.foldl (fun sums row => List.zipWith (· + ·) sums row.1) (countsOf o [])
    if o.operands.length > 1 then rows := (total, some "total".toList) :: rows
    let isPipe := o.operands.isEmpty && !job.inputIsFile
    let width :=
      if rows.length ≤ 1 && total.length = 1 then 1 else if isPipe then 7
      else (Octets.ofNat bytes).length
    for (counts, name?) in rows.reverse do
      let cells := counts.map fun n => padBlanks false width (Octets.ofNat n)
      let row := (cells ++ name?.toList).intersperse [' ']
      writeLine row.flatten

/-! ## Characters -/

/-- The characters that a set of `tr` lists. -/
def trSet : Nat → Octets → List Char
  | 0, _ => []
  | _, [] => []
  | fuel + 1, '[' :: ':' :: rest =>
    let name := rest.takeWhile Char.isAlpha
    match Shell.characterClass? (String.ofList name), rest.drop name.length with
    | some isIn, ':' :: ']' :: behind =>
      ((List.range 256).map Char.ofNat).filter isIn ++ trSet fuel behind
    | _, _ => '[' :: ':' :: trSet fuel rest
  | fuel + 1, c :: rest =>
    let (low, rest) := if c = '\\' then escape rest else (c, rest)
    match rest with
    | '-' :: d :: behind =>
      let (high, behind) := if d = '\\' then escape behind else (d, behind)
      (List.range (high.toNat + 1 - low.toNat)).map (fun i => Char.ofNat (low.toNat + i))
        ++ trSet fuel behind
    | _ => low :: trSet fuel rest

/-- Leaves one of each run of the characters. -/
def squeeze (isIn : Char → Bool) : Octets → Octets
  | c :: d :: rest =>
    if c = d && isIn c then squeeze isIn (d :: rest) else c :: squeeze isIn (d :: rest)
  | s => s

def tr : Work Unit :=
  withOptions 1 "cCds" "" fun o => do
    let input ← takeInput
    let isComplement := o.has 'c' || o.has 'C'
    let sets := o.operands.map fun s => trSet (s.length + 1) s
    let first (set : List Char) (c : Char) : Bool := set.contains c ^^ isComplement
    match sets with
    | [] => misuse 1 "missing operand"
    | [a] =>
      if o.has 'd' then write (input.filter (!first a ·))
      else if o.has 's' then write (squeeze (first a) input)
      else
        complain s!"missing operand after '{Octets.toString (o.operands.head?.getD [])}'"
        writeError "Two strings must be given when translating."
        pointAtHelp
    | [a, b] =>
      if o.has 'd' then write (squeeze b.contains (input.filter (!first a ·)))
      else
        match b.getLast? with
        | none => complain "when not truncating set1, string2 must be non-empty"
        | some last =>
          let image (c : Char) : Char :=
            if isComplement then if a.contains c then c else last
            else match a.findIdx? (· = c) with
              | some _ => b.getD (a.length - 1 - (a.reverse.findIdx (· = c))) last
              | none => c
          let image := input.map image
          write (if o.has 's' then squeeze b.contains image else image)
    | _ => misuse 1 s!"extra operand '{Octets.toString (o.operands.getD 2 [])}'"

def rev : Work Unit := do
  for line in wholeLines (← contentsOf (← read).arguments) do
    match line.getLast? with
    | some '\n' => writeLine line.dropLast.reverse
    | _ => write line.reverse

def tac : Work Unit := do
  write (wholeLines (← contentsOf (← read).arguments)).reverse.flatten

/-! ## Lines -/

/-- The number that a line begins with. -/
def leadingNumber (s : Octets) : Int :=
  let s := s.dropWhile isSpace
  let (isNegative, s) := match s with
    | '-' :: rest => (true, rest)
    | _ => (false, s)
  let n : Int := digitsValue 10 (s.takeWhile Char.isDigit)
  if isNegative then -n else n

/-- Leaves one of each run of lines that count as the same. -/
def dropRepeated (same : Octets → Octets → Bool) : List Octets → List Octets
  | a :: b :: rest =>
    match dropRepeated same (b :: rest) with
    | c :: rest => if same a c then a :: rest else a :: c :: rest
    | [] => [a]
  | lines => lines

def sort : Work Unit :=
  withOptions 2 "rnufb" "" fun o => do
    let mut all := []
    for name in if o.operands.isEmpty then [['-']] else o.operands do
      match ← contentOf name with
      | .ok s => all := all ++ linesOf s
      | .error e =>
        fail 2 s!"cannot read: {Octets.toString name}: {e.text}"
        return
    let folded (s : Octets) : Octets := if o.has 'f' then s.map Char.toUpper else s
    let key (a b : Octets) : Ordering :=
      if o.has 'n' then compare (leadingNumber a) (leadingNumber b) else compare (folded a) (folded b)
    let order (a b : Octets) : Ordering := if o.has 'u' then key a b else (key a b).then (compare a b)
    let sorted := all.mergeSort fun a b =>
      if o.has 'r' then (order a b).isGE else (order a b).isLE
    write (unlines (if o.has 'u' then dropRepeated (fun a b => key a b = .eq) sorted else sorted))

/-- Runs of equal lines with their lengths. -/
def runs : List Octets → List (Nat × Octets)
  | [] => []
  | a :: rest =>
    match runs rest with
    | (n, b) :: others => if a = b then (n + 1, b) :: others else (1, a) :: (n, b) :: others
    | [] => [(1, a)]

def uniq : Work Unit :=
  withOptions 1 "cdu" "" fun o => do
    for (n, line) in runs (linesOf (← contentsOf (o.operands.take 1))) do
      if (n > 1 || !o.has 'd') && (n = 1 || !o.has 'u') then
        writeLine ((if o.has 'c' then padBlanks false 7 (Octets.ofNat n) ++ [' '] else []) ++ line)

/-- The ranges of a list such as `1,3-5,7-`. -/
def ranges? (s : Octets) : Option (List (Nat × Option Nat)) :=
  (Text.splitChar ',' s).mapM fun part =>
    match Text.splitChar '-' part with
    | [n] => (number? n).map fun n => (n, some n)
    | [a, b] =>
      if a.isEmpty && b.isEmpty then none
      else do
        let low ← if a.isEmpty then some 1 else number? a
        let high ← if b.isEmpty then some none else (number? b).map some
        return (low, high)
    | _ => none
where
  number? (s : Octets) : Option Nat :=
    if s.isEmpty || !s.all Char.isDigit || digitsValue 10 s = 0 then none else some (digitsValue 10 s)

/-- The items whose positions, from 1 on, are in the ranges. -/
def pick {α : Type} (ranges : List (Nat × Option Nat)) (items : List α) : List α :=
  ((items.zip (List.range' 1 items.length)).filter fun (_, i) =>
    ranges.any fun (low, high?) => low ≤ i && high?.all (i ≤ ·)).map (·.1)

def cut : Work Unit :=
  withOptions 1 "s" "dfcb" fun o => do
    let delimiter := ((o.value? 'd').bind (·.head?)).getD '\t'
    match o.value? 'f', ((o.value? 'c') <|> (o.value? 'b')) with
    | none, none => misuse 1 "you must specify a list of bytes, characters, or fields"
    | fields?, others? =>
      match ranges? ((fields? <|> others?).getD []) with
      | none => misuse 1 "invalid field range"
      | some ranges =>
        for line in linesOf (← contentsOf o.operands) do
          if fields?.isNone then writeLine (pick ranges line)
          else if !line.contains delimiter then
            if o.has 's' then pure () else writeLine line
          else
            writeLine ((pick ranges (Text.splitChar delimiter line)).intersperse [delimiter]).flatten

def tee : Work Unit :=
  withOptions 1 "a" "" fun o => do
    let input ← takeInput
    write input
    for name in o.operands do
      let path := Octets.toString name
      let bytes := Octets.toBytes input
      if path != "/dev/null" then
        tryFiles path fun files => if o.has 'a' then files.append path bytes else files.write path bytes

/-! ## Sequences -/

def seq : Work Unit := do
  let job ← read
  let (arguments, separator) := match job.arguments with
    | ['-', 's'] :: s :: rest => (rest, s)
    | ('-' :: 's' :: s) :: rest => (rest, s)
    | arguments => (arguments, ['\n'])
  match arguments.find? fun a => (wholeNumber? a).isNone with
  | some a => misuse 1 s!"invalid floating point argument: '{Octets.toString a}'"
  | none =>
    let numbers := arguments.filterMap wholeNumber?
    let run (first step last : Int) : Work Unit := do
      if step = 0 then complain s!"invalid Zero increment value: '0'"
      else
        let count := ((last - first) / step + 1).toNat
        let terms := (List.range count).map fun (i : Nat) => Octets.ofInt (first + step * i)
        if !terms.isEmpty then write ((terms.intersperse separator).flatten ++ ['\n'])
    match numbers with
    | [] => misuse 1 "missing operand"
    | [last] => run 1 1 last
    | [first, last] => run first 1 last
    | [first, step, last] => run first step last
    | _ => misuse 1 s!"extra operand '{Octets.toString (arguments.getD 3 [])}'"

/-- How many lines `yes` writes before its reader is taken to have gone. -/
def patience : Nat := 100000

def yes : Work Unit := do
  let words := (← read).arguments
  let line := if words.isEmpty then ['y'] else (words.intersperse [' ']).flatten
  write (List.replicate patience (line ++ ['\n'])).flatten

end TestBench.Utility
