import TestBench.Shell.Octets
/-
  Arithmetic of the shell.

  1. An expression is read into a tree by the precedence of its operators; numbers are decimal, octal
     with a leading zero, or hexadecimal with a leading `0x`.
  2. Values are integers of 64 bits that wrap around.  A variable counts as the number that its text is,
     and as 0 if it has none.
  3. Operators on truth values look at their right side only if they need it.
-/
namespace TestBench.Shell

inductive ArithmeticFault where
  | expectingPrimary
  | expectingParenthesis
  | expectingEnd
  | expectingColon
  | divisionByZero
  | illegalNumber (text : Octets)
  deriving Repr, DecidableEq, Inhabited

/-- The message for an expression of the given text. -/
def ArithmeticFault.message (text : Octets) (fault : ArithmeticFault) : String :=
  let wrong (what : String) : String := s!"arithmetic expression: {what}: \"{Octets.toString text}\""
  match fault with
  | expectingPrimary => wrong "expecting primary"
  | expectingParenthesis => wrong "expecting ')'"
  | expectingEnd => wrong "expecting EOF"
  | expectingColon => wrong "expecting ':'"
  | divisionByZero => wrong "division by zero"
  | illegalNumber text => s!"Illegal number: {Octets.toString text}"

namespace Arithmetic

/-! ## Numbers -/

/-- The value of digits in a base. -/
def digitsValue (base : Nat) (s : List Char) : Nat :=
  s.foldl (fun n c => base * n + digitValue c) 0
where
  digitValue (c : Char) : Nat :=
    if c.isDigit then c.toNat - '0'.toNat else c.toLower.toNat - 'a'.toNat + 10

def isHexDigit (c : Char) : Bool := c.isDigit || ('a' ≤ c.toLower && c.toLower ≤ 'f')

/-- A number without a sign at the beginning of a text, and what is behind it. -/
def number? (s : Octets) : Option (Nat × Octets) :=
  let take (base : Nat) (isDigit : Char → Bool) (s : Octets) : Nat × Octets :=
    (digitsValue base (s.takeWhile isDigit), s.dropWhile isDigit)
  match s with
  | '0' :: x :: d :: rest =>
    if (x = 'x' || x = 'X') && isHexDigit d then some (take 16 isHexDigit (d :: rest))
    else some (take 8 (fun c => '0' ≤ c && c ≤ '7') s)
  | '0' :: _ => some (take 8 (fun c => '0' ≤ c && c ≤ '7') s)
  | c :: _ => if c.isDigit then some (take 10 Char.isDigit s) else none
  | [] => none

/-- A number with a sign and blanks around it, all of a text. -/
def wholeNumber? (s : Octets) : Option Int :=
  let s := s.dropWhile isSpace
  let (isNegative, s) := match s with
    | '-' :: rest => (true, rest)
    | '+' :: rest => (false, rest)
    | _ => (false, s)
  match number? s with
  | some (n, rest) =>
    if rest.all isSpace then some (if isNegative then -(n : Int) else n) else none
  | none => none

/-- The whole number of 64 bits that is nearest. -/
def clamp (n : Int) : Int :=
  let limit : Int := (Nat.pow 2 63 : Nat)
  if n < -limit then -limit else if n < limit then n else limit - 1

/-- The value of a variable's text. -/
def valueOf (s : Octets) : Except ArithmeticFault Int64 :=
  if s.all isSpace then .ok 0
  else match wholeNumber? s with
    | some n => .ok (Int64.ofInt (clamp n))
    | none => .error (.illegalNumber s)

/-! ## Expressions -/

inductive Token where
  | number (n : Int64)
  | name (text : String)
  | operator (text : String)
  deriving Repr, DecidableEq, Inhabited

/-- The operators, longer ones first. -/
def operators : List String :=
  ["<<=", ">>=", "<<", ">>", "<=", ">=", "==", "!=", "&&", "||", "+=", "-=", "*=", "/=", "%=", "&=",
    "^=", "|=", "+", "-", "*", "/", "%", "<", ">", "=", "!", "~", "&", "|", "^", "?", ":", "(", ")"]

/-- The tokens of an expression; a character that belongs to none is an operator without a meaning. -/
def tokens : Nat → Octets → List Token
  | 0, _ => []
  | _, [] => []
  | fuel + 1, c :: rest =>
    if isSpace c then tokens fuel rest
    else if isNameStart c then
      let name := (c :: rest).takeWhile isNameChar
      .name (String.ofList name) :: tokens fuel ((c :: rest).drop name.length)
    else match number? (c :: rest) with
      | some (n, behind) => .number (Int64.ofNat (min n (Nat.pow 2 63 - 1))) :: tokens fuel behind
      | none =>
        let o := (operators.find? fun (o : String) => o.toList.isPrefixOf (c :: rest)).getD
          (String.singleton c)
        .operator o :: tokens fuel ((c :: rest).drop o.length)

inductive Expression where
  | number (n : Int64)
  | name (text : String)
  | unary (operator : String) (e : Expression)
  | binary (operator : String) (a b : Expression)
  | choose (condition yes no : Expression)
  | assign (name operator : String) (value : Expression)
  deriving Repr, Inhabited

/-- The operators that take two numbers, loosest first. -/
def levels : List (List String) :=
  [["||"], ["&&"], ["|"], ["^"], ["&"], ["==", "!="], ["<", "<=", ">", ">="], ["<<", ">>"], ["+", "-"],
    ["*", "/", "%"]]

/-- What an assignment computes before it assigns. -/
def assignedOperator? (o : String) : Option String :=
  if o == "=" then some ""
  else if ["+=", "-=", "*=", "/=", "%=", "&=", "^=", "|=", "<<=", ">>="].contains o then
    some (String.ofList o.toList.dropLast)
  else none

abbrev Parsed := Except ArithmeticFault (Expression × List Token)

mutual

/-- Reads an assignment or a choice. -/
def readAssignment : Nat → List Token → Parsed
  | 0, _ => .error .expectingPrimary
  | fuel + 1, ts =>
    match ts with
    | .name x :: .operator o :: rest =>
      match assignedOperator? o with
      | some o => do
        let (value, rest) ← readAssignment fuel rest
        return (.assign x o value, rest)
      | none => readChoice fuel ts
    | _ => readChoice fuel ts

def readChoice : Nat → List Token → Parsed
  | 0, _ => .error .expectingPrimary
  | fuel + 1, ts => do
    match ← readLevel fuel levels ts with
    | (condition, .operator "?" :: rest) =>
      match ← readAssignment fuel rest with
      | (yes, .operator ":" :: rest) =>
        let (no, rest) ← readChoice fuel rest
        return (.choose condition yes no, rest)
      | _ => .error .expectingColon
    | done => return done

/-- Reads operands joined by the operators of a level. -/
def readLevel : Nat → List (List String) → List Token → Parsed
  | 0, _, _ => .error .expectingPrimary
  | fuel + 1, [], ts => readPrimary fuel ts
  | fuel + 1, level :: tighter, ts => do
    let (first, rest) ← readLevel fuel tighter ts
    readMore fuel level tighter first rest

def readMore : Nat → List String → List (List String) → Expression → List Token → Parsed
  | 0, _, _, _, _ => .error .expectingPrimary
  | fuel + 1, level, tighter, first, ts =>
    match ts with
    | .operator o :: rest =>
      if level.contains o then do
        let (second, rest) ← readLevel fuel tighter rest
        readMore fuel level tighter (.binary o first second) rest
      else .ok (first, ts)
    | _ => .ok (first, ts)

def readPrimary : Nat → List Token → Parsed
  | 0, _ => .error .expectingPrimary
  | fuel + 1, ts =>
    match ts with
    | .number n :: rest => .ok (.number n, rest)
    | .name x :: rest => .ok (.name x, rest)
    | .operator "(" :: rest => do
      match ← readAssignment fuel rest with
      | (e, .operator ")" :: rest) => return (e, rest)
      | _ => .error .expectingParenthesis
    | .operator o :: rest =>
      if ["+", "-", "!", "~"].contains o then do
        let (e, rest) ← readPrimary fuel rest
        return (.unary o e, rest)
      else .error .expectingPrimary
    | [] => .error .expectingPrimary

end

/-- Reads an expression. -/
def parse (s : Octets) : Except ArithmeticFault Expression := do
  let ts := tokens (s.length + 1) s
  match ← readAssignment (20 * (ts.length + 1)) ts with
  | (e, []) => return e
  | _ => .error .expectingEnd

/-! ## Values -/

def truth (b : Bool) : Int64 := if b then 1 else 0

/-- The value of an operator on two numbers. -/
def apply (o : String) (a b : Int64) : Except ArithmeticFault Int64 :=
  match o with
  | "|" => .ok (a ||| b)
  | "^" => .ok (a ^^^ b)
  | "&" => .ok (a &&& b)
  | "==" => .ok (truth (a == b))
  | "!=" => .ok (truth (a != b))
  | "<" => .ok (truth (a < b))
  | "<=" => .ok (truth (a ≤ b))
  | ">" => .ok (truth (b < a))
  | ">=" => .ok (truth (b ≤ a))
  | "<<" => .ok (a <<< b)
  | ">>" => .ok (a >>> b)
  | "+" => .ok (a + b)
  | "-" => .ok (a - b)
  | "*" => .ok (a * b)
  | "/" => if b = 0 then .error .divisionByZero else .ok (a / b)
  | "%" => if b = 0 then .error .divisionByZero else .ok (a % b)
  | _ => .ok b

/-- The value of an expression, in a store that `get` reads and `set` changes. -/
def eval {σ : Type} (get : σ → String → Octets) (set : σ → String → Octets → σ) :
    Expression → σ → Except ArithmeticFault (Int64 × σ)
  | .number n, store => .ok (n, store)
  | .name x, store => return (← valueOf (get store x), store)
  | .unary o e, store => do
    let (n, store) ← eval get set e store
    match o with
    | "-" => return (-n, store)
    | "!" => return (truth (n = 0), store)
    | "~" => return (~~~n, store)
    | _ => return (n, store)
  | .binary "&&" a b, store => do
    let (m, store) ← eval get set a store
    if m = 0 then return (0, store)
    let (n, store) ← eval get set b store
    return (truth (n ≠ 0), store)
  | .binary "||" a b, store => do
    let (m, store) ← eval get set a store
    if m ≠ 0 then return (1, store)
    let (n, store) ← eval get set b store
    return (truth (n ≠ 0), store)
  | .binary o a b, store => do
    let (m, store) ← eval get set a store
    let (n, store) ← eval get set b store
    return (← apply o m n, store)
  | .choose condition yes no, store => do
    let (n, store) ← eval get set condition store
    if n ≠ 0 then eval get set yes store else eval get set no store
  | .assign x o value, store => do
    let (n, store) ← eval get set value store
    let n ← if o.isEmpty then pure n else do apply o (← valueOf (get store x)) n
    return (n, set store x (Octets.ofInt n.toInt))

end Arithmetic
end TestBench.Shell
