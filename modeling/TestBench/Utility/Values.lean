import TestBench.Digest
import TestBench.Shell.Arithmetic
import TestBench.Shell.Pattern
import TestBench.Utility.Basic
/-
  Programs about values and lines: `basename`, `dirname`, `expr`, `sleep`, `md5sum` and `grep`.
-/
namespace TestBench.Utility

open TestBench.Shell (Octets linesOf)
open TestBench.Shell.Arithmetic (digitsValue wholeNumber?)

/-! ## Paths and times -/

/-- A path without separators at its end, unless it has nothing else. -/
def trimSlashes (s : Octets) : Octets :=
  let trimmed := (s.reverse.dropWhile (· = '/')).reverse
  if trimmed.isEmpty && !s.isEmpty then ['/'] else trimmed

def basename : Work Unit := do
  match (← read).arguments with
  | [] => misuse 1 "missing operand"
  | path :: rest =>
    let path := trimSlashes path
    let name := if path = ['/'] then path else (path.reverse.takeWhile (· ≠ '/')).reverse
    match rest with
    | [] => writeLine name
    | [ending] =>
      writeLine (if ending.isSuffixOf name && ending ≠ name then name.take (name.length - ending.length)
        else name)
    | _ :: extra :: _ => misuse 1 s!"extra operand '{Octets.toString extra}'"

def dirname : Work Unit := do
  let paths := (← read).arguments
  if paths.isEmpty then misuse 1 "missing operand"
  for path in paths do
    let front := ((trimSlashes path).reverse.dropWhile (· ≠ '/')).reverse
    writeLine (if front.isEmpty then ['.'] else trimSlashes front)

/-- The milliseconds of a time such as `0.5` or `2m`. -/
def duration? (s : Octets) : Option Nat :=
  let whole := s.takeWhile Char.isDigit
  let (fraction, rest) := match s.drop whole.length with
    | '.' :: rest => (rest.takeWhile Char.isDigit, rest.dropWhile Char.isDigit)
    | rest => ([], rest)
  let factor? := match rest with
    | [] => some 1
    | ['s'] => some 1
    | ['m'] => some 60
    | ['h'] => some 3600
    | ['d'] => some 86400
    | _ => none
  if whole.isEmpty && fraction.isEmpty then none
  else factor?.map fun factor =>
    factor * (1000 * digitsValue 10 whole + digitsValue 10 ((fraction ++ ['0', '0', '0']).take 3))

def sleep : Work Unit := do
  let arguments := (← read).arguments
  if arguments.isEmpty then misuse 1 "missing operand"
  let wrong := arguments.filter fun a => (duration? a).isNone
  for a in wrong do complain s!"invalid time interval '{Octets.toString a}'"
  if !wrong.isEmpty then pointAtHelp
  else modify fun e => { e with ms := e.ms + (arguments.filterMap duration?).foldl (· + ·) 0 }

def md5sum : Work Unit := do
  let names := (← read).arguments
  for name in if names.isEmpty then [['-']] else names do
    match ← contentOf name with
    | .ok s => writeText s!"{Digest.md5Text (Octets.toBytes s)}  {Octets.toString name}\n"
    | .error e => complain s!"{Octets.toString name}: {e.text}"

/-! ## Expressions -/

/-- The texts of `expr` that count as false. -/
def isNull (s : Octets) : Bool := s.isEmpty || wholeNumber? s = some 0

/-- The operators of `expr`, loosest first. -/
def exprLevels : List (List String) :=
  [["|"], ["&"], ["<", "<=", "=", "==", "!=", ">=", ">"], ["+", "-"], ["*", "/", "%"]]

def exprApply (o : String) (a b : Octets) : Except String Octets := do
  let truth (v : Bool) : Octets := if v then ['1'] else ['0']
  let numbers : Except String (Int × Int) :=
    match wholeNumber? a, wholeNumber? b with
    | some m, some n => .ok (m, n)
    | _, _ => .error "non-integer argument"
  let order : Ordering := match wholeNumber? a, wholeNumber? b with
    | some m, some n => compare m n
    | _, _ => compare a b
  match o with
  | "|" => return if !isNull a then a else if !isNull b then b else ['0']
  | "&" => return if isNull a || isNull b then ['0'] else a
  | "<" => return truth order.isLT
  | "<=" => return truth order.isLE
  | "=" | "==" => return truth order.isEq
  | "!=" => return truth order.isNe
  | ">=" => return truth order.isGE
  | ">" => return truth order.isGT
  | "+" => let (m, n) ← numbers; return Octets.ofInt (m + n)
  | "-" => let (m, n) ← numbers; return Octets.ofInt (m - n)
  | "*" => let (m, n) ← numbers; return Octets.ofInt (m * n)
  | _ =>
    let (m, n) ← numbers
    if n = 0 then throw "division by zero"
    return Octets.ofInt (if o = "/" then m.tdiv n else m.tmod n)

mutual

def exprLevel : Nat → List (List String) → List Octets → Except String (Octets × List Octets)
  | 0, _, _ => .error "syntax error"
  | _, [], [] => .error "missing operand"
  | fuel + 1, [], ['('] :: rest => do
    match ← exprLevel fuel exprLevels rest with
    | (v, [')'] :: rest) => return (v, rest)
    | _ => .error "syntax error: expecting ')'"
  | _, [], a :: rest =>
    match a, rest with
    | ['l', 'e', 'n', 'g', 't', 'h'], s :: rest => .ok (Octets.ofNat s.length, rest)
    | _, _ => .ok (a, rest)
  | fuel + 1, level :: tighter, ts => do
    let (first, rest) ← exprLevel fuel tighter ts
    exprMore fuel level tighter first rest

def exprMore : Nat → List String → List (List String) → Octets → List Octets →
    Except String (Octets × List Octets)
  | 0, _, _, _, _ => .error "syntax error"
  | fuel + 1, level, tighter, first, ts =>
    match ts with
    | o :: rest =>
      let text := String.ofList o
      if level.contains text then
        if rest.isEmpty then .error s!"syntax error: missing argument after '{text}'"
        else do
          let (second, rest) ← exprLevel fuel tighter rest
          exprMore fuel level tighter (← exprApply text first second) rest
      else .ok (first, ts)
    | [] => .ok (first, [])

end

def expr : Work Unit := do
  let arguments := (← read).arguments
  if arguments.isEmpty then misuse 2 "missing operand"
  else match exprLevel (20 * (arguments.length + 1)) exprLevels arguments with
    | .ok (v, []) =>
      writeLine v
      if isNull v then setStatus 1
    | .ok (_, extra :: _) =>
      fail 2 s!"syntax error: unexpected argument '{Octets.toString extra}'"
    | .error message => fail 2 message

/-! ## Lines that match -/

/-- An atom of a regular expression, and whether a star stands behind it. -/
structure Atom where
  item : Shell.PatternItem
  isStarred : Bool

/-- A regular expression: atoms, and whether they are held at the ends of the line. -/
structure Regular where
  atoms : List Atom
  fromStart : Bool
  toEnd : Bool

/-- The atoms of a regular expression, without its marks for the ends of a line. -/
def atomsOf : Nat → Octets → List Atom
  | 0, _ => []
  | _, [] => []
  | fuel + 1, c :: rest =>
    let plain := (Shell.PatternItem.literal c, rest)
    let (item, rest) := match c, rest with
      | '.', _ => (.anyOne, rest)
      | '\\', d :: rest => (.literal d, rest)
      | '[', _ =>
        let (isNegated, inside) := match rest with
          | '^' :: inside => (true, inside)
          | _ => (false, rest)
        match Shell.Pattern.bracket? (inside.length + 1) true (inside.map (⟨·, false⟩)) with
        | some (items, behind) => (.oneOf isNegated items, behind.map (·.char))
        | none => plain
      | _, _ => plain
    match rest with
    | '*' :: rest => ⟨item, true⟩ :: atomsOf fuel rest
    | _ => ⟨item, false⟩ :: atomsOf fuel rest

def Regular.ofText (s : Octets) : Regular :=
  let (fromStart, s) := match s with
    | '^' :: rest => (true, rest)
    | _ => (false, s)
  let toEnd := s.getLast? = some '$' && s.dropLast.getLast? ≠ some '\\'
  ⟨atomsOf (s.length + 1) (if toEnd then s.dropLast else s), fromStart, toEnd⟩

/-- Whether atoms match the beginning of a text, all of it if `toEnd`. -/
def matchesFrom (toEnd : Bool) : List Atom → Octets → Bool
  | [], s => !toEnd || s.isEmpty
  | ⟨item, false⟩ :: rest, c :: s => Shell.Pattern.accepts [item] [c] && matchesFrom toEnd rest s
  | ⟨_, false⟩ :: _, [] => false
  | ⟨_, true⟩ :: rest, [] => matchesFrom toEnd rest []
  | ⟨item, true⟩ :: rest, c :: s =>
    matchesFrom toEnd rest (c :: s)
      || (Shell.Pattern.accepts [item] [c] && matchesFrom toEnd (⟨item, true⟩ :: rest) s)
  termination_by atoms s => atoms.length + s.length

def Regular.accepts (r : Regular) (s : Octets) : Bool :=
  if r.fromStart then matchesFrom r.toEnd r.atoms s
  else (List.range (s.length + 1)).any fun i => matchesFrom r.toEnd r.atoms (s.drop i)

def grep : Work Unit :=
  withOptions 2 "cqvinFxhHsEl" "e" fun o => do
    let operands := match o.value? 'e' with
      | some pattern => pattern :: o.operands
      | none => o.operands
    match operands with
    | [] =>
      writeError "Usage: grep [OPTION]... PATTERNS [FILE]..."
      writeError "Try 'grep --help' for more information."
      setStatus 2
    | pattern :: names =>
      let folded (s : Octets) : Octets := if o.has 'i' then s.map Char.toLower else s
      let fixed : List Atom := pattern.map fun c => ⟨.literal c, false⟩
      let regular := if o.has 'F' then ⟨fixed, false, false⟩ else Regular.ofText (folded pattern)
      let regular := if o.has 'x' then { regular with fromStart := true, toEnd := true } else regular
      let isWanted (line : Octets) : Bool := regular.accepts (folded line) != o.has 'v'
      let showsName := (names.length > 1 || o.has 'H') && !o.has 'h'
      let mut isFound := false
      for name in if names.isEmpty then [['-']] else names do
        let heading := if showsName then name ++ [':'] else []
        match ← contentOf name with
        | .error e => fail 2 s!"{Octets.toString name}: {e.text}"
        | .ok s =>
          let lines := linesOf s
          let found := (lines.zip (List.range' 1 lines.length)).filter fun (line, _) => isWanted line
          if !found.isEmpty then isFound := true
          if o.has 'q' then pure ()
          else if o.has 'c' then writeLine (heading ++ Octets.ofNat found.length)
          else if o.has 'l' then if found.isEmpty then pure () else writeLine name
          else for (line, i) in found do
            let number := if o.has 'n' then Octets.ofNat i ++ [':'] else []
            writeLine (heading ++ number ++ line)
      if isFound && o.has 'q' then modify fun e => { e with status := 0 }
      else if !isFound then setStatus 1

end TestBench.Utility
