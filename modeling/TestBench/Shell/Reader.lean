import TestBench.Shell.Tree
/-
  Reading scripts.

  1. A script is read and run line by line, where a line goes on as long as the commands on it do; a
     fault in a later line is found only when the lines before it have been run (`readLine`).
  2. Characters are grouped into tokens.  A word ends at a blank or an operator outside of quotes; what
     is expanded in it is read as a tree at once, commands included.
  3. Reserved words count only where a command may begin, and where the grammar asks for one.
  4. Documents of redirections stand behind the line that announces them and are kept apart, in order.
-/
namespace TestBench.Shell

/-! ## Tokens and faults -/

inductive Token where
  | endOfFile
  | newline
  | operator (text : String)
  | reserved (text : String)
  | redirection (descriptor : Nat) (text : String)
  | word (parts : Word) (isQuoted : Bool)
  deriving Inhabited

/-- What a token is called in messages. -/
def Token.name : Token → String
  | .endOfFile => "end of file"
  | .newline => "newline"
  | .operator text => s!"\"{text}\""
  | .reserved text => s!"\"{text}\""
  | .redirection .. => "redirection"
  | .word .. => "word"

/-- Why a script cannot be read. -/
inductive SyntaxFault where
  | unexpected (found : String) (expected : Option String)
  | openQuote
  | openBackquote
  | openBrace
  | openArithmetic
  | badLoopVariable
  | badFunctionName
  | badDescriptor
  deriving Repr, DecidableEq, Inhabited

def SyntaxFault.message : SyntaxFault → String
  | unexpected found (some expected) => s!"{found} unexpected (expecting {expected})"
  | unexpected found none => s!"{found} unexpected"
  | openQuote => "Unterminated quoted string"
  | openBackquote => "EOF in backquote substitution"
  | openBrace => "Missing '\x7d'"
  | openArithmetic => "Missing '))'"
  | badLoopVariable => "Bad for loop variable"
  | badFunctionName => "Bad function name"
  | badDescriptor => "Bad fd number"

/-- A document that was announced but not read yet. -/
structure PendingDocument where
  index : Nat
  delimiter : Octets
  dropsTabs : Bool
  isQuoted : Bool

/-- A script that is being read. -/
structure Source where
  chars : Octets
  line : Nat
  /-- A token that was looked at and put back. -/
  ahead : Option Token
  pending : List PendingDocument
  documents : List (Nat × Word)
  /-- The number of documents so far. -/
  count : Nat
  deriving Inhabited

def Source.start (script : Octets) : Source := ⟨script, 1, none, [], [], 0⟩

/-- A step of reading; a fault comes with the number of its line. -/
abbrev Reading (α : Type) := StateT Source (Except (Nat × SyntaxFault)) α

namespace Reading

def fail {α : Type} (fault : SyntaxFault) : Reading α := do throw ((← get).line, fault)

def unexpected {α : Type} (t : Token) (expected : Option String) : Reading α :=
  fail (.unexpected t.name expected)

/-- Takes so many characters. -/
def skip (n : Nat) : Reading Unit := modify fun s => { s with chars := s.chars.drop n }

def newLine : Reading Unit := modify fun s => { s with line := s.line + 1 }

def putBack (t : Token) : Reading Unit := modify fun s => { s with ahead := some t }

end Reading

open Reading

/-! ## Words -/

/-- Where the characters of a word stand. -/
inductive Inside where
  | plain
  | quotes
  | braces (inQuotes : Bool)
  | arithmetic (depth : Nat)
  | document
  deriving Repr, DecidableEq, Inhabited

namespace Inside

/-- Whether characters that stand here are quoted. -/
def isQuoted : Inside → Bool
  | plain => false
  | quotes => true
  | braces q => q
  | arithmetic _ => true
  | document => true

/-- The characters that a backslash quotes here; it quotes every character in unquoted places. -/
def escapes (inside : Inside) (c : Char) : Bool :=
  match inside with
  | plain => true
  | braces false => true
  | quotes => c = '$' || c = '\x60' || c = '\\' || c = '"'
  | braces true => c = '$' || c = '\x60' || c = '\\' || c = '"' || c = '\x7d'
  | arithmetic _ => c = '$' || c = '\x60' || c = '\\' || c = '"'
  | document => c = '$' || c = '\x60' || c = '\\'

end Inside

def endsWord (c : Char) : Bool :=
  c = ' ' || c = '\t' || c = '\n' || c = ';' || c = '&' || c = '|' || c = '<' || c = '>' || c = '('
    || c = ')'

/-- Joins neighbouring pieces of text. -/
def joinText : Word → Word
  | .text q a :: rest =>
    match joinText rest with
    | .text r b :: rest => if q = r then .text q (a ++ b) :: rest else .text q a :: .text r b :: rest
    | rest => .text q a :: rest
  | part :: rest => part :: joinText rest
  | [] => []

/-- A word from its parts, the last one first. -/
def finished (done : Word) : Reading Word := return joinText done.reverse

/-- The characters up to a single quote, and what is behind it. -/
def splitQuote : Octets → Option (Octets × Octets)
  | [] => none
  | '\'' :: rest => some ([], rest)
  | c :: rest => (splitQuote rest).map fun (s, rest) => (c :: s, rest)

/-- The text up to a backquote with its backslashes resolved, and what is behind it. -/
def splitBackquote (inQuotes : Bool) : Octets → Option (Octets × Octets)
  | [] => none
  | '\x60' :: rest => some ([], rest)
  | '\\' :: c :: rest =>
    let inner := splitBackquote inQuotes rest
    if c = '\x60' || c = '$' || c = '\\' || (c = '"' && inQuotes) then
      inner.map fun (s, rest) => (c :: s, rest)
    else inner.map fun (s, rest) => ('\\' :: c :: s, rest)
  | c :: rest => (splitBackquote inQuotes rest).map fun (s, rest) => (c :: s, rest)

def isSpecialParameter (c : Char) : Bool := "@*#?-$!".toList.contains c || c.isDigit

/-- The name of a parameter between braces, and what is behind it. -/
def parameterName (s : Octets) : Option (String × Octets) :=
  match s with
  | [] => none
  | c :: rest =>
    if isNameStart c then some (String.ofList (s.takeWhile isNameChar), s.dropWhile isNameChar)
    else if c.isDigit then some (String.ofList (s.takeWhile Char.isDigit), s.dropWhile Char.isDigit)
    else if isSpecialParameter c then some (String.singleton c, rest)
    else none

/-- What a mark behind the name of a parameter asks for, and the length of the mark. -/
def parameterMark : Octets → Option (ParameterUse × Nat)
  | ':' :: '-' :: _ => some (.orDefault true, 2)
  | ':' :: '=' :: _ => some (.orAssign true, 2)
  | ':' :: '?' :: _ => some (.orFail true, 2)
  | ':' :: '+' :: _ => some (.ifSet true, 2)
  | '-' :: _ => some (.orDefault false, 1)
  | '=' :: _ => some (.orAssign false, 1)
  | '?' :: _ => some (.orFail false, 1)
  | '+' :: _ => some (.ifSet false, 1)
  | '%' :: '%' :: _ => some (.dropBack true, 2)
  | '%' :: _ => some (.dropBack false, 1)
  | '#' :: '#' :: _ => some (.dropFront true, 2)
  | '#' :: _ => some (.dropFront false, 1)
  | _ => none

/-- The name and value of a word that assigns. -/
def assignment? (word : Word) : Option (String × Word) :=
  match word with
  | .text false chars :: rest =>
    let name := chars.takeWhile (· ≠ '=')
    match chars.drop name.length with
    | '=' :: value =>
      if isName name then
        some (String.ofList name, if value.isEmpty then rest else .text false value :: rest)
      else none
    | _ => none
  | _ => none

/-- The text of a word without its quotes. -/
def unquotedText (word : Word) : Octets :=
  word.flatMap fun part => match part with
    | .text _ chars => chars
    | _ => []

/-! ## Documents -/

/-- The lines of a document up to its delimiter, and what is behind it. -/
def documentLines (d : PendingDocument) : Nat → Octets → Nat → Octets × Octets × Nat
  | 0, s, n => ([], s, n)
  | fuel + 1, s, n =>
    if s.isEmpty then ([], [], n)
    else
      let line := s.takeWhile (· ≠ '\n')
      let rest := (s.drop line.length).drop 1
      let line := if d.dropsTabs then line.dropWhile (· = '\t') else line
      if line = d.delimiter then ([], rest, n + 1)
      else
        let (body, rest, n) := documentLines d fuel rest (n + 1)
        (line ++ '\n' :: body, rest, n)

def reservedWords : List String :=
  ["!", "case", "do", "done", "elif", "else", "esac", "fi", "for", "if", "in", "then", "until", "while",
    "\x7b", "\x7d"]

/-- The reserved words, and the operators, at which a list of commands ends. -/
def endsList : Token → Bool
  | .endOfFile => true
  | .operator text => text == ")" || text == ";;"
  | .reserved text => ["do", "done", "elif", "else", "esac", "fi", "then", "\x7d"].contains text
  | _ => false

/-- The builtins whose names no function may have. -/
def specialBuiltins : List String :=
  [".", ":", "break", "continue", "eval", "exec", "exit", "export", "readonly", "return", "set", "shift",
    "times", "trap", "unset"]

/-- How far a list of commands goes: to the end of a line, or to a token that ends a list, before which
    there has to be a command or not. -/
inductive Extent where
  | line
  | body
  | branch
  deriving Repr, DecidableEq, Inhabited

/-- Commands one after another. -/
def Command.andThen (first : Option Command) (second : Command) : Command :=
  match first with
  | none => second
  | some first => .inOrder first second

/-- What a redirection operator asks for. -/
def redirectionKind (text : String) : RedirectionKind :=
  match text with
  | "<" => .input
  | ">>" => .append
  | "<>" => .both
  | ">&" => .duplicate
  | "<&" => .duplicate
  | _ => .output

/-- The redirection operator that a text begins with. -/
def redirectionOperator? (s : Octets) : Option String :=
  (["<<-", "<<", "<>", "<&", "<", ">>", ">&", ">|", ">"].find? fun (o : String) =>
    o.toList.isPrefixOf s)

/-- Takes blanks, joined lines and a comment in front of a token. -/
def skipBlanks : Nat → Reading Unit
  | 0 => pure ()
  | fuel + 1 => do
    match (← get).chars with
    | ' ' :: _ => skip 1; skipBlanks fuel
    | '\t' :: _ => skip 1; skipBlanks fuel
    | '\\' :: '\n' :: _ => skip 2; newLine; skipBlanks fuel
    | '#' :: rest => skip (1 + (rest.takeWhile (· ≠ '\n')).length)
    | _ => pure ()

mutual

/-- Reads the parts of a word; those so far stand last one first. -/
def readParts : Nat → Inside → Word → Reading Word
  | 0, _, _ => fail .openBrace
  | fuel + 1, inside, done => do
    let q := inside.isQuoted
    match (← get).chars, inside with
    | [], .plain => finished done
    | [], .document => finished done
    | [], .quotes => fail .openQuote
    | [], .braces _ => fail .openBrace
    | [], .arithmetic _ => fail .openArithmetic
    | '\\' :: '\n' :: _, _ => skip 2; newLine; readParts fuel inside done
    | '\\' :: c :: _, _ =>
      if inside.escapes c then skip 2; readParts fuel inside (.text true [c] :: done)
      else skip 1; readParts fuel inside (.text q ['\\'] :: done)
    | '$' :: _, _ =>
      let part ← readDollar fuel q
      readParts fuel inside (part :: done)
    | '\x60' :: rest, _ =>
      match splitBackquote q rest with
      | none => fail .openBackquote
      | some (script, behind) =>
        let s ← get
        set { s with chars := script }
        let body ← readBody fuel
        let inner ← get
        set { inner with chars := behind, line := s.line + (script.filter (· = '\n')).length }
        readParts fuel inside (.output q body :: done)
    | '"' :: _, .quotes => skip 1; finished done
    | '\x7d' :: _, .braces _ => skip 1; finished done
    | ')' :: ')' :: _, .arithmetic 0 => skip 2; finished done
    | ')' :: _, .arithmetic depth => skip 1; readParts fuel (.arithmetic (depth - 1)) (.text q [')'] :: done)
    | '(' :: _, .arithmetic depth => skip 1; readParts fuel (.arithmetic (depth + 1)) (.text q ['('] :: done)
    | '"' :: _, .arithmetic _ => skip 1; readParts fuel inside done
    | c :: rest, _ =>
      if c = '"' && inside ≠ .document then do
        skip 1
        let parts ← readParts fuel .quotes [.text true []]
        readParts fuel inside (parts.reverse ++ done)
      else if c = '\'' && !q then do
        match splitQuote rest with
        | none =>
          modify fun s => { s with line := s.line + (rest.filter (· = '\n')).length }
          fail .openQuote
        | some (text, behind) =>
          modify fun s =>
            { s with chars := behind, line := s.line + (text.filter (· = '\n')).length }
          readParts fuel inside (.text true text :: done)
      else if inside = .plain && endsWord c then finished done
      else do
        skip 1
        if c = '\n' then newLine
        readParts fuel inside (.text q [c] :: done)

/-- Reads what a dollar sign announces. -/
def readDollar : Nat → Bool → Reading WordPart
  | 0, _ => fail .openBrace
  | fuel + 1, q => do
    skip 1
    match (← get).chars with
    | '(' :: '(' :: _ =>
      skip 2
      return .arithmetic q (← readParts fuel (.arithmetic 0) [])
    | '(' :: _ =>
      skip 1
      let ahead := (← get).ahead
      modify fun s => { s with ahead := none }
      let body := (← readList fuel .branch none).getD .nothing
      match ← readToken fuel false true with
      | .operator ")" => modify fun s => { s with ahead }
      | t => unexpected t (some "\")\"")
      return .output q body
    | '\x7b' :: _ =>
      skip 1
      readBraces fuel q
    | c :: rest =>
      if isNameStart c then
        let name := (c :: rest).takeWhile isNameChar
        skip name.length
        return .parameter q (String.ofList name) .value []
      else if isSpecialParameter c then
        skip 1
        return .parameter q (String.singleton c) .value []
      else return .text q ['$']
    | [] => return .text q ['$']

/-- Reads a parameter behind its opening brace. -/
def readBraces : Nat → Bool → Reading WordPart
  | 0, _ => fail .openBrace
  | fuel + 1, q => do
    let s := (← get).chars
    let isLength : Bool := match s with
      | '#' :: rest => (parameterName rest).any fun (_, behind) => behind.head? == some '\x7d'
      | _ => false
    match parameterName (if isLength then s.drop 1 else s) with
    | none =>
      discard (readParts fuel (.braces q) [])
      return .parameter q "" .bad []
    | some (name, rest) =>
      modify fun s => { s with chars := rest }
      match rest with
      | '\x7d' :: _ =>
        skip 1
        return .parameter q name (if isLength then .length else .value) []
      | _ =>
        match parameterMark rest with
        | none =>
          discard (readParts fuel (.braces q) [])
          return .parameter q name .bad []
        | some (use, n) =>
          skip n
          let quotedWord := match use with
            | .dropBack _ => false
            | .dropFront _ => false
            | _ => q
          return .parameter q name use (← readParts fuel (.braces quotedWord) [])

/-- Reads the commands up to the end of the text. -/
def readBody : Nat → Reading Command
  | 0 => fail .openBackquote
  | fuel + 1 => do
    let ahead := (← get).ahead
    modify fun s => { s with ahead := none }
    let body := (← readList fuel .branch none).getD .nothing
    match ← readToken fuel false true with
    | .endOfFile => modify fun s => { s with ahead }
    | t => unexpected t none
    return body

/-- Reads the documents that were announced on the line before. -/
def readDocuments : Nat → Reading Unit
  | 0 => pure ()
  | fuel + 1 => do
    let s ← get
    match s.pending with
    | [] => pure ()
    | d :: rest =>
      let (body, behind, lines) := documentLines d (s.chars.length + 1) s.chars 0
      let word ←
        if d.isQuoted then pure [.text true body]
        else do
          set { s with chars := body, pending := [], ahead := none }
          readParts fuel .document []
      modify fun after =>
        { after with
          chars := behind, line := s.line + lines, ahead := s.ahead, pending := rest
          documents := after.documents ++ [(d.index, word)] }
      readDocuments fuel

/-- Reads a token, past line breaks if asked to; a bare word may be a reserved one if asked for. -/
def readToken : Nat → Bool → Bool → Reading Token
  | 0, _, _ => fail .openBrace
  | fuel + 1, skipsLines, allowsReserved => do
    let t ← match (← get).ahead with
      | some t => do
        modify fun s => { s with ahead := none }
        pure t
      | none => readFresh fuel
    match t with
    | .newline => if skipsLines then readToken fuel skipsLines allowsReserved else return t
    | .word parts false =>
      match if allowsReserved then bareText? parts else none with
      | some text =>
        let text := String.ofList text
        if reservedWords.contains text then return .reserved text else return t
      | none => return t
    | _ => return t

/-- Reads a token from the characters. -/
def readFresh : Nat → Reading Token
  | 0 => fail .openBrace
  | fuel + 1 => do
    skipBlanks ((← get).chars.length + 1)
    let operator (text : String) : Reading Token := do
      skip text.length
      return .operator text
    match (← get).chars with
    | [] =>
      readDocuments fuel
      return .endOfFile
    | '\n' :: _ =>
      skip 1
      newLine
      readDocuments fuel
      return .newline
    | ';' :: ';' :: _ => operator ";;"
    | ';' :: _ => operator ";"
    | '&' :: '&' :: _ => operator "&&"
    | '&' :: _ => operator "&"
    | '|' :: '|' :: _ => operator "||"
    | '|' :: _ => operator "|"
    | '(' :: _ => operator "("
    | ')' :: _ => operator ")"
    | c :: rest =>
      let digit? := if c.isDigit then some (c.toNat - '0'.toNat) else none
      match redirectionOperator? (c :: rest), digit?, redirectionOperator? rest with
      | some text, _, _ =>
        skip text.length
        return .redirection (if text.startsWith "<" then 0 else 1) text
      | none, some d, some text =>
        skip (1 + text.length)
        return .redirection d text
      | none, _, _ =>
        let parts ← readParts fuel .plain []
        return .word parts (bareText? parts).isNone

/-- Reads the word behind a redirection operator. -/
def readTarget : Nat → Nat → String → Reading Redirection
  | 0, _, _ => fail .openBrace
  | fuel + 1, descriptor, text => do
    match ← readToken fuel false false with
    | .word parts isQuoted =>
      if text == "<<" || text == "<<-" then
        let s ← get
        let d := PendingDocument.mk s.count (unquotedText parts) (text == "<<-") isQuoted
        set { s with count := s.count + 1, pending := s.pending ++ [d] }
        return (descriptor, .document d.index, [])
      else return (descriptor, redirectionKind text, parts)
    | t => unexpected t none

/-- Reads commands separated by semicolons, ampersands and line breaks. -/
def readList : Nat → Extent → Option Command → Reading (Option Command)
  | 0, _, _ => fail .openBrace
  | fuel + 1, extent, done => do
    let t ← readToken fuel (extent ≠ .line) true
    match t with
    | .newline => return done
    | .endOfFile =>
      putBack t
      return done
    | _ =>
      putBack t
      if (extent = .branch || (extent = .body && done.isSome)) && endsList t then return done
      let first ← readAndOr fuel
      let separator ← readToken fuel false false
      match separator with
      | .operator "&" => readList fuel extent (some (Command.andThen done (.background first)))
      | .operator ";" => readList fuel extent (some (Command.andThen done first))
      | .newline =>
        putBack separator
        if extent = .line then return some (Command.andThen done first)
        else readList fuel extent (some (Command.andThen done first))
      | .endOfFile =>
        putBack separator
        return some (Command.andThen done first)
      | _ =>
        if extent = .line then unexpected separator none
        else
          putBack separator
          return some (Command.andThen done first)

/-- Reads pipelines that depend on one another's success. -/
def readAndOr : Nat → Reading Command
  | 0 => fail .openBrace
  | fuel + 1 => do
    let first ← readPipeline fuel false
    readAndOrRest fuel first

def readAndOrRest : Nat → Command → Reading Command
  | 0, _ => fail .openBrace
  | fuel + 1, first => do
    match ← readToken fuel false false with
    | .operator "&&" => readAndOrRest fuel (.both first (← readPipeline fuel true))
    | .operator "||" => readAndOrRest fuel (.either first (← readPipeline fuel true))
    | t =>
      putBack t
      return first

/-- Reads commands of which each reads what the one before it writes. -/
def readPipeline : Nat → Bool → Reading Command
  | 0, _ => fail .openBrace
  | fuel + 1, skipsLines => do
    match ← readToken fuel skipsLines true with
    | .reserved "!" => return .negate (← readStages fuel false [])
    | t =>
      putBack t
      readStages fuel skipsLines []

/-- Reads the stages of a pipeline; those so far stand last one first. -/
def readStages : Nat → Bool → List Command → Reading Command
  | 0, _, _ => fail .openBrace
  | fuel + 1, skipsLines, done => do
    let stage ← readCommand fuel skipsLines
    match ← readToken fuel false false with
    | .operator "|" => readStages fuel true (stage :: done)
    | t =>
      putBack t
      return if done.isEmpty then stage else .pipe (stage :: done).reverse

/-- Reads a command. -/
def readCommand : Nat → Bool → Reading Command
  | 0, _ => fail .openBrace
  | fuel + 1, skipsLines => do
    let t ← readToken fuel skipsLines true
    let line := (← get).line
    match t with
    | .reserved "if" =>
      let body ← readChoice fuel
      readTrailing fuel body []
    | .reserved "while" => readLoop fuel false
    | .reserved "until" => readLoop fuel true
    | .reserved "for" => readEach fuel line
    | .reserved "case" =>
      match ← readToken fuel false false with
      | .word subject _ =>
        match ← readToken fuel true true with
        | .reserved "in" =>
          let branches ← readBranches fuel
          readTrailing fuel (.select line subject branches) []
        | t => unexpected t (some "\"in\"")
      | t => unexpected t (some "word")
    | .operator "(" =>
      let body := (← readList fuel .body none).getD .nothing
      expect fuel (.operator ")")
      readTrailing fuel (.subshell body) []
    | .reserved "\x7b" =>
      let body := (← readList fuel .body none).getD .nothing
      expect fuel (.reserved "\x7d")
      readTrailing fuel body []
    | .word .. =>
      putBack t
      readSimple fuel line [] [] []
    | .redirection .. =>
      putBack t
      readSimple fuel line [] [] []
    | _ => unexpected t none

/-- Takes the token that has to come next. -/
def expect : Nat → Token → Reading Unit
  | 0, _ => fail .openBrace
  | fuel + 1, wanted => do
    let t ← readToken fuel false true
    if t.name == wanted.name then pure () else unexpected t (some wanted.name)

/-- Reads the redirections behind a command; those so far stand last one first. -/
def readTrailing : Nat → Command → List Redirection → Reading Command
  | 0, _, _ => fail .openBrace
  | fuel + 1, body, done => do
    match ← readToken fuel false true with
    | .redirection descriptor text =>
      let r ← readTarget fuel descriptor text
      readTrailing fuel body (r :: done)
    | t =>
      putBack t
      return if done.isEmpty then body else .redirected body done.reverse

/-- Reads a choice behind its first word. -/
def readChoice : Nat → Reading Command
  | 0 => fail .openBrace
  | fuel + 1 => do
    let condition := (← readList fuel .body none).getD .nothing
    expect fuel (.reserved "then")
    let yes := (← readList fuel .body none).getD .nothing
    match ← readToken fuel false true with
    | .reserved "elif" => return .choice condition yes (← readChoice fuel)
    | .reserved "else" =>
      let no := (← readList fuel .body none).getD .nothing
      expect fuel (.reserved "fi")
      return .choice condition yes no
    | .reserved "fi" => return .choice condition yes .nothing
    | t => unexpected t (some "\"fi\"")

def readLoop : Nat → Bool → Reading Command
  | 0, _ => fail .openBrace
  | fuel + 1, untilDone => do
    let condition := (← readList fuel .body none).getD .nothing
    expect fuel (.reserved "do")
    let body := (← readList fuel .body none).getD .nothing
    expect fuel (.reserved "done")
    readTrailing fuel (.loop untilDone condition body) []

/-- Reads a loop over words behind its first word. -/
def readEach : Nat → Nat → Reading Command
  | 0, _ => fail .openBrace
  | fuel + 1, line => do
    let name ← match ← readToken fuel false false with
      | .word parts false =>
        match bareText? parts with
        | some name => if isName name then pure (String.ofList name) else fail .badLoopVariable
        | none => fail .badLoopVariable
      | _ => fail .badLoopVariable
    let words ← match ← readToken fuel true true with
      | .reserved "in" => do pure (some (← readWords fuel []))
      | .operator ";" => pure none
      | t => do
        putBack t
        pure none
    match ← readToken fuel true true with
    | .reserved "do" =>
      let body := (← readList fuel .body none).getD .nothing
      expect fuel (.reserved "done")
      readTrailing fuel (.each line name words body) []
    | t => unexpected t (some "\"do\"")

/-- Reads words up to the end of the line. -/
def readWords : Nat → List Word → Reading (List Word)
  | 0, _ => fail .openBrace
  | fuel + 1, done => do
    match ← readToken fuel false false with
    | .word parts _ => readWords fuel (parts :: done)
    | .newline => return done.reverse
    | .operator ";" => return done.reverse
    | t => unexpected t none

/-- Reads the branches of a selection. -/
def readBranches : Nat → Reading (List (List Word × Command))
  | 0 => fail .openBrace
  | fuel + 1 => do
    match ← readToken fuel true true with
    | .reserved "esac" => return []
    | t =>
      match t with
      | .operator "(" => pure ()
      | t => putBack t
      let patterns ← readPatterns fuel []
      let body := (← readList fuel .branch none).getD .nothing
      match ← readToken fuel true true with
      | .reserved "esac" => return [(patterns, body)]
      | .operator ";;" => return (patterns, body) :: (← readBranches fuel)
      | t => unexpected t (some "\";;\"")

/-- Reads the patterns of a branch and the parenthesis behind them. -/
def readPatterns : Nat → List Word → Reading (List Word)
  | 0, _ => fail .openBrace
  | fuel + 1, done => do
    match ← readToken fuel false false with
    | .word parts _ =>
      match ← readToken fuel false false with
      | .operator "|" => readPatterns fuel (parts :: done)
      | .operator ")" => return (parts :: done).reverse
      | t => unexpected t (some "\")\"")
    | .endOfFile => unexpected .endOfFile (some "\")\"")
    | t => unexpected t none

/-- Reads a simple command, or the definition of a function; what was read stands last one first. -/
def readSimple : Nat → Nat → List (String × Word) → List Word → List Redirection → Reading Command
  | 0, _, _, _, _ => fail .openBrace
  | fuel + 1, line, assignments, words, redirections => do
    let finish (_ : Unit) : Reading Command :=
      pure (.simple line assignments.reverse words.reverse redirections.reverse)
    match ← readToken fuel false false with
    | .word parts _ =>
      match if words.isEmpty then assignment? parts else none with
      | some a => readSimple fuel line (a :: assignments) words redirections
      | none =>
        readSimple fuel line assignments (parts :: words) redirections
    | .redirection descriptor text =>
      let r ← readTarget fuel descriptor text
      readSimple fuel line assignments words (r :: redirections)
    | .operator "(" =>
      match words with
      | [name] =>
        if assignments.isEmpty && redirections.isEmpty then
          match ← readToken fuel false false with
          | .operator ")" =>
            match bareText? name with
            | some name =>
              let text := String.ofList name
              if isName name && !specialBuiltins.contains text then
                return .define text (← readCommand fuel true)
              else fail .badFunctionName
            | none => fail .badFunctionName
          | t => unexpected t (some "\")\"")
        else
          putBack (.operator "(")
          finish ()
      | _ =>
        putBack (.operator "(")
        finish ()
    | t =>
      putBack t
      finish ()

end

/-- Reads the commands of the next line that has any; nothing is left at the end of the script. -/
def readLines : Nat → Source → Except (Nat × SyntaxFault) (Option Command × Source)
  | 0, s => .ok (none, s)
  | fuel + 1, s => do
    let bound := 20 * (s.chars.length + 2)
    let (t, s) ← (readToken bound false false).run s
    match t with
    | .endOfFile => return (none, s)
    | .newline => readLines fuel s
    | t =>
      let (c, s) ← (readList bound .line none).run { s with ahead := some t }
      return (some (c.getD .nothing), s)

/-- Reads the commands of the next line, and what is behind it. -/
def readLine (s : Source) : Except (Nat × SyntaxFault) (Option Command × Source) :=
  readLines (s.chars.length + 1) s

end TestBench.Shell
