import TestBench.Files.Lookup
import TestBench.Shell.Arithmetic
/-
  Conditions that `test` checks.

  1. A condition is made of operators on texts, numbers and files, joined by `-a`, `-o` and `!`.
  2. Whether an argument is an operator depends on its neighbours: one with nothing behind it is a
     plain text, and so is one in front of an operator that takes two sides.
  3. A reader stands at an argument; it keeps the last argument that it used, so that what is behind it
     can be looked at (`Check`).
-/
namespace TestBench.Shell

inductive ConditionFault where
  | argumentExpected (operator : Octets)
  | unexpectedOperator (argument : Octets)
  | closingParenthesisExpected
  | missingBracket
  | illegalNumber (text : Octets)
  deriving Repr, DecidableEq, Inhabited

def ConditionFault.message : ConditionFault → String
  | argumentExpected operator => s!"{Octets.toString operator}: argument expected"
  | unexpectedOperator argument => s!"{Octets.toString argument}: unexpected operator"
  | closingParenthesisExpected => "closing paren expected"
  | missingBracket => "missing ]"
  | illegalNumber text => s!"Illegal number: {Octets.toString text}"

namespace Condition

/-- What an argument is read as. -/
inductive Role where
  | nothing
  | operand
  | unary (letter : Char)
  | binary (operator : String)
  | andAlso
  | orElse
  | negation
  | opening
  | closing
  deriving Repr, DecidableEq, Inhabited

/-- The operator that an argument is by its text. -/
def roleOfText (a : Octets) : Role :=
  match a with
  | ['-', 'a'] => .andAlso
  | ['-', 'o'] => .orElse
  | ['!'] => .negation
  | ['('] => .opening
  | [')'] => .closing
  | ['-', c] => if "rwxefdcbpugkshLStGOzn".toList.contains c then .unary c else .operand
  | _ =>
    let text := String.ofList a
    if ["=", "!=", "<", ">", "-eq", "-ne", "-ge", "-gt", "-le", "-lt", "-nt", "-ot", "-ef"].contains text
    then .binary text else .operand

def Role.isBinary : Role → Bool
  | .binary _ => true
  | _ => false

/-- The role of the first argument. -/
def role : List Octets → Role
  | [] => .nothing
  | a :: rest =>
    match roleOfText a with
    | .unary c =>
      match rest with
      | [] => .operand
      | [_] => .unary c
      | next :: _ => if (roleOfText next).isBinary then .operand else .unary c
    | .opening => if rest.isEmpty then .operand else .opening
    | r => r

def number (s : Octets) : Except ConditionFault Int :=
  match Arithmetic.wholeNumber? s with
  | some n => if Arithmetic.clamp n = n then .ok n else .error (.illegalNumber s)
  | none => .error (.illegalNumber s)

/-- The value of an operator with one side. -/
def unaryValue (files : Files) (letter : Char) (operand : Octets) : Except ConditionFault Bool := do
  let path := Octets.toString operand
  let node? := (files.node path).toOption
  match letter with
  | 'z' => return operand.isEmpty
  | 'n' => return !operand.isEmpty
  | 'e' | 'r' | 'w' => return node?.isSome
  | 'f' => return files.isFile path
  | 'd' => return files.isDirectory path
  | 's' =>
    match node? with
    | some (.file bytes _) => return !bytes.isEmpty
    | some _ => return true
    | none => return false
  | 'x' =>
    match node? with
    | some (.file _ mode) => return mode &&& 0b001001001 ≠ 0
    | some _ => return true
    | none => return false
  | 'h' | 'L' =>
    let parent := (path.toList.reverse.dropWhile (· ≠ '/')).reverse
    let name := String.ofList (path.toList.drop parent.length)
    match files.node (String.ofList (if parent.isEmpty then ['.'] else parent)) with
    | .ok node =>
      match Json.lookup name node.entries with
      | some (.link _) => return true
      | _ => return false
    | .error _ => return false
  | 't' => discard (number operand); return false
  | 'O' | 'G' => return node?.isSome
  | _ => return false

/-- The value of an operator with two sides. -/
def binaryValue (operator : String) (a b : Octets) : Except ConditionFault Bool := do
  match operator with
  | "=" => return a = b
  | "!=" => return a ≠ b
  | "<" => return a < b
  | ">" => return b < a
  | "-eq" => return (← number a) = (← number b)
  | "-ne" => return (← number a) ≠ (← number b)
  | "-ge" => return (← number b) ≤ (← number a)
  | "-gt" => return (← number b) < (← number a)
  | "-le" => return (← number a) ≤ (← number b)
  | "-lt" => return (← number a) < (← number b)
  | "-ef" => return a = b
  | _ => return false

/-- A value, and the arguments from the last one used on. -/
abbrev Check := Except ConditionFault (Bool × List Octets)

mutual

/-- Alternatives joined by `-o`. -/
def anyOf (files : Files) : Nat → List Octets → Bool → Check
  | 0, args, value => .ok (value, args)
  | fuel + 1, args, value => do
    let (v, args) ← allOf files fuel args true
    match args with
    | _ :: next =>
      if role next = .orElse then anyOf files fuel (next.drop 1) (value || v)
      else return (value || v, args)
    | [] => return (value || v, [])

/-- Conditions joined by `-a`. -/
def allOf (files : Files) : Nat → List Octets → Bool → Check
  | 0, args, value => .ok (value, args)
  | fuel + 1, args, value => do
    let (v, args) ← negated files fuel args
    match args with
    | _ :: next =>
      if role next = .andAlso then allOf files fuel (next.drop 1) (value && v)
      else return (value && v, args)
    | [] => return (value && v, [])

def negated (files : Files) : Nat → List Octets → Check
  | 0, args => .ok (false, args)
  | fuel + 1, args => do
    if role args = .negation then
      match args with
      | _ :: next =>
        if next.isEmpty then return (true, args)
        let (v, args) ← negated files fuel next
        return (!v, args)
      | [] => return (true, [])
    else single files fuel args

def single (files : Files) : Nat → List Octets → Check
  | 0, args => .ok (false, args)
  | fuel + 1, args => do
    match role args, args with
    | .nothing, _ => return (false, args)
    | .opening, _ :: inner =>
      if role inner = .closing then return (false, inner)
      let (v, args) ← anyOf files fuel inner false
      match args with
      | _ :: next =>
        if role next = .closing then return (v, next) else throw .closingParenthesisExpected
      | [] => throw .closingParenthesisExpected
    | .unary letter, a :: rest =>
      match rest with
      | [] => throw (.argumentExpected a)
      | operand :: _ => return (← unaryValue files letter operand, rest)
    | _, a :: rest =>
      match role rest, rest with
      | .binary o, _ :: b :: behind => return (← binaryValue o a b, b :: behind)
      | .binary _, [o] => throw (.argumentExpected o)
      | _, _ => return (!a.isEmpty, args)
    | _, [] => return (false, args)

end

/-- The value of all arguments; a condition without any fails. -/
def value (files : Files) : Nat → List Octets → Except ConditionFault Bool
  | 0, _ => .ok false
  | fuel + 1, args => do
    let evaluate (args : List Octets) : Except ConditionFault Bool := do
      let (v, rest) ← anyOf files (8 * (args.length + 2)) args false
      match rest with
      | a :: _ :: _ => throw (.unexpectedOperator a)
      | _ => return v
    let isWrapped := args.head? = some ['('] && args.getLast? = some [')']
    match args with
    | [] => return false
    | [a, o, b] =>
      match roleOfText o with
      | .binary o => binaryValue o a b
      | _ =>
        if isWrapped then evaluate (args.drop 1).dropLast
        else if a = ['!'] then return !(← value files fuel (args.drop 1))
        else evaluate args
    | [_, _, _, _] =>
      if isWrapped then evaluate (args.drop 1).dropLast
      else if args.head? = some ['!'] then return !(← value files fuel (args.drop 1))
      else evaluate args
    | _ => evaluate args

/-- Checks the arguments of `test`, or of `[`, whose last one has to be a bracket. -/
def check (files : Files) (isBracket : Bool) (args : List Octets) : Except ConditionFault Bool :=
  if isBracket then
    if args.getLast? = some [']'] then value files (args.length + 1) args.dropLast
    else .error .missingBracket
  else value files (args.length + 1) args

end Condition
end TestBench.Shell
