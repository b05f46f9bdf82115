import TestBench.Yaml.Scalar
import TestBench.Text.Utf8
/-
  The tokens of YAML text.

  1. Indentation becomes explicit: a stack of columns opens a block when a key or an entry stands
     further right than the innermost block, and closes blocks when a token stands further left.
  2. A key is known as one only when the colon behind it is reached.  A token that may begin a key is
     therefore remembered (`PendingKey`), one for each level of brackets, and the key token is put in
     front of it later.
  3. Each step of the lexer takes one token from the text (`Lexer.next`); every token takes at least
     one character, which bounds the number of steps.
-/
namespace TestBench.Yaml

open TestBench.Text

inductive Token where
  | versionDirective (major minor : Nat)
  | tagDirective (handle expansion : String)
  | documentStart
  | documentEnd
  | blockSequenceStart
  | blockMappingStart
  | blockEnd
  | flowSequenceStart
  | flowSequenceEnd
  | flowMappingStart
  | flowMappingEnd
  | blockEntry
  | flowEntry
  | key
  | value
  | alias (name : String)
  | anchor (name : String)
  | tag (handle suffix : String)
  | scalar (text : String) (plain : Bool)
  deriving Repr, DecidableEq, Inhabited

/-! ## Directives, anchors and tags -/

/-- The number of bytes of a UTF-8 sequence, by its first byte. -/
def sequenceLength (b : Nat) : Nat :=
  if b < 0x80 then 1
  else if b / 32 = 6 then 2
  else if b / 16 = 14 then 3
  else if b / 8 = 30 then 4
  else 0

/-- Reads `n` escaped bytes. -/
def escapedBytes : Nat → Cursor → Except Fault (List UInt8 × Cursor)
  | 0, c => .ok ([], c)
  | n + 1, c =>
    match c.peek == some '%', (c.ahead 1).bind (digitIn? 16), (c.ahead 2).bind (digitIn? 16) with
    | true, some h, some l =>
      (escapedBytes n (c.skip 3)).map fun (bs, c) => (Utf8.byte (16 * h + l) :: bs, c)
    | _, _, _ => .error .badTag

/-- One character written as escaped bytes. -/
def escapedChar (c : Cursor) : Except Fault (List Char × Cursor) :=
  match (c.ahead 1).bind (digitIn? 16), (c.ahead 2).bind (digitIn? 16) with
  | some h, some l =>
    match escapedBytes (sequenceLength (16 * h + l)) c with
    | .error e => .error e
    | .ok (bytes, c) =>
      match Utf8.decode? bytes with
      | some [x] => .ok ([x], c)
      | _ => .error .badTag
  | _, _ => .error .badTag

def tagChars : String := ";/?:@&=+$.%!~*'()"

/-- The characters of a tag; `verbatim` admits brackets and commas too. -/
def tagText (verbatim : Bool) : Nat → List Char → Cursor → Except Fault (List Char × Cursor)
  | 0, _, _ => .error .tooLong
  | fuel + 1, done, c =>
    match c.peek with
    | none => .ok (done, c)
    | some x =>
      if x = '%' then
        match escapedChar c with
        | .error e => .error e
        | .ok (y, c) => tagText verbatim fuel (done ++ y) c
      else if isNameChar x || tagChars.toList.contains x || (verbatim && ",[]".toList.contains x) then
        tagText verbatim fuel (done ++ [x]) (c.skip 1)
      else .ok (done, c)

/-- What follows a handle; `head` was read as a handle but may be the beginning of the text. -/
def tagSuffix (verbatim : Bool) (head : List Char) (c : Cursor) : Except Fault (String × Cursor) :=
  match tagText verbatim (c.rest.length + 1) (head.drop 1) c with
  | .error e => .error e
  | .ok (text, c) =>
    if head.isEmpty && text.isEmpty then .error .badTag else .ok (String.ofList text, c)

/-- A handle: an exclamation mark, then a name and a second mark if there is one. -/
def tagHandle (c : Cursor) : List Char × Cursor :=
  let (name, after) := (c.skip 1).span isNameChar
  if after.looksAt '!' then ('!' :: name ++ ['!'], after.skip 1) else ('!' :: name, after)

def tagToken (inFlow : Bool) (c : Cursor) : Except Fault (Token × Cursor) := do
  let (token, c) ←
    if c.ahead 1 == some '<' then do
      let (suffix, c) ← tagSuffix true [] (c.skip 2)
      if c.looksAt '>' then .ok (Token.tag "" suffix, c.skip 1) else .error .badTag
    else
      let (handle, after) := tagHandle c
      if 2 ≤ handle.length && handle.getLast? == some '!' then do
        let (suffix, c) ← tagSuffix false [] after
        .ok (Token.tag (String.ofList handle) suffix, c)
      else do
        let (suffix, c) ← tagSuffix false handle after
        .ok (if suffix.isEmpty then Token.tag "" "!" else Token.tag "!" suffix, c)
  if (inFlow && c.looksAt ',') || endsWord c.peek then .ok (token, c) else .error .badTag

/-- A number of a version, of at most nine digits. -/
def versionNumber (c : Cursor) : Except Fault (Nat × Cursor) :=
  let (digits, c) := c.span Char.isDigit
  match digits? 10 digits with
  | some n => if digits.length ≤ 9 then .ok (n, c) else .error .badDirective
  | none => .error .badDirective

def directiveToken (c : Cursor) : Except Fault (Token × Cursor) := do
  let (name, c) := (c.skip 1).span isNameChar
  if name.isEmpty || !endsWord c.peek then .error .badDirective
  let (token, c) ←
    if name = "YAML".toList then do
      let (major, c) ← versionNumber (c.skipWhile isBlank)
      if !c.looksAt '.' then .error .badDirective
      let (minor, c) ← versionNumber (c.skip 1)
      .ok (Token.versionDirective major minor, c)
    else if name = "TAG".toList then do
      let c := c.skipWhile isBlank
      let (handle, c) := tagHandle c
      if !c.peek.any isBlank then .error .badDirective
      if handle.length ≠ 1 && handle.getLast? ≠ some '!' then .error .badDirective
      let (expansion, c) ← tagSuffix true [] (c.skipWhile isBlank)
      if !endsWord c.peek then .error .badDirective
      .ok (Token.tagDirective (String.ofList handle) expansion, c)
    else .error .unknownDirective
  let c ← finishLine .badDirective c
  return (token, c)

/-- The name of an anchor or of an alias. -/
def anchorName (c : Cursor) : Except Fault (String × Cursor) :=
  let (name, c) := (c.skip 1).span isNameChar
  if name.isEmpty || !(endsWord c.peek || c.looksAtAny "?:,]\x7d%@\x60") then .error .badAnchor
  else .ok (String.ofList name, c)

/-! ## The lexer -/

/-- A token that may turn out to begin a key. -/
structure PendingKey where
  required : Bool
  position : Nat
  index : Nat
  line : Nat
  column : Nat

/-- The state between two tokens.  Finished tokens stand last one first; `keys` has one entry for
    each level of brackets, the innermost first. -/
structure Lexer where
  cursor : Cursor
  tokens : List Token
  count : Nat
  indent : Int
  outer : List Int
  flow : Nat
  keyAllowed : Bool
  keys : List (Option PendingKey)

namespace Lexer

def start (source : List Char) : Lexer :=
  { cursor := Cursor.start source, tokens := [], count := 0, indent := -1, outer := [], flow := 0
    keyAllowed := true, keys := [none] }

def inFlow (l : Lexer) : Bool := l.flow ≠ 0

def push (l : Lexer) (t : Token) : Lexer := { l with tokens := t :: l.tokens, count := l.count + 1 }

/-- Puts a token in front of the one at a position. -/
def insertAt (l : Lexer) (position : Nat) (t : Token) : Lexer :=
  let (after, before) := l.tokens.splitAt (l.count - position)
  { l with tokens := after ++ t :: before, count := l.count + 1 }

/-- Opens a block at a column further right than the innermost block. -/
def openBlock (l : Lexer) (column position : Nat) (t : Token) : Lexer :=
  if l.inFlow || (column : Int) ≤ l.indent then l
  else { l.insertAt position t with indent := column, outer := l.indent :: l.outer }

/-- Closes the blocks that stand further right than a column. -/
def closeBlocks (column : Int) : Nat → Lexer → Lexer
  | 0, l => l
  | fuel + 1, l =>
    if column < l.indent then
      closeBlocks column fuel { l.push .blockEnd with indent := l.outer.headD (-1), outer := l.outer.tail }
    else l

def unindent (l : Lexer) (column : Int) : Lexer :=
  if l.inFlow then l else closeBlocks column (l.outer.length + 1) l

/-- Forgets the pending key of the current level; one that had to be a key is an error. -/
def dropKey (l : Lexer) : Except Fault Lexer :=
  match l.keys with
  | some k :: rest => if k.required then .error .missingColon else .ok { l with keys := none :: rest }
  | _ => .ok l

/-- Remembers that a key may begin here. -/
def markKey (l : Lexer) : Except Fault Lexer :=
  if l.keyAllowed then
    l.dropKey.map fun l =>
      let k : PendingKey :=
        { required := !l.inFlow && l.indent == l.cursor.column, position := l.count
          index := l.cursor.index, line := l.cursor.line, column := l.cursor.column }
      { l with keys := some k :: l.keys.tail }
  else .ok l

/-- The pending key of the current level, if the colon at the cursor can still belong to it: it is on
    the same line and at most 1024 characters away. -/
def liveKey (l : Lexer) : Except Fault (Option PendingKey) :=
  match l.keys with
  | some k :: _ =>
    if k.line < l.cursor.line || k.index + 1024 < l.cursor.index then
      if k.required then .error .missingColon else .ok none
    else .ok (some k)
  | _ => .ok none

/-- Moves over blanks, comments and breaks to the next token. -/
def skipToToken : Nat → Lexer → Lexer
  | 0, l => l
  | fuel + 1, l =>
    let c := if l.cursor.index = 0 ∧ l.cursor.peek = some (Char.ofNat 0xFEFF) then l.cursor.skip 1
      else l.cursor
    let c := c.skipWhile fun x => x = ' ' || ((l.inFlow || !l.keyAllowed) && x = '\t')
    let c := if c.looksAt '#' then c.skipLine else c
    if c.peek.any isBreak then
      skipToToken fuel { l with cursor := c.skipBreak, keyAllowed := l.keyAllowed || !l.inFlow }
    else { l with cursor := c }

/-! ### One token of each kind -/

/-- Takes a mark of some characters. -/
def take (l : Lexer) (n : Nat) (t : Token) : Lexer := { l.push t with cursor := l.cursor.skip n }

def endOfText (l : Lexer) : Except Fault Lexer := (l.unindent (-1)).dropKey

def directive (l : Lexer) : Except Fault Lexer := do
  let l ← (l.unindent (-1)).dropKey
  let (t, c) ← directiveToken l.cursor
  return { l.push t with cursor := c, keyAllowed := false }

def documentMark (l : Lexer) (t : Token) : Except Fault Lexer := do
  let l ← (l.unindent (-1)).dropKey
  return { l.take 3 t with keyAllowed := false }

def flowStart (l : Lexer) (t : Token) : Except Fault Lexer := do
  let l ← l.markKey
  return { l.take 1 t with keys := none :: l.keys, flow := l.flow + 1, keyAllowed := true }

def flowEnd (l : Lexer) (t : Token) : Except Fault Lexer := do
  let l ← l.dropKey
  let l := if l.inFlow then { l with keys := l.keys.tail, flow := l.flow - 1 } else l
  return { l.take 1 t with keyAllowed := false }

def flowEntry (l : Lexer) : Except Fault Lexer := do
  let l ← l.dropKey
  return { l.take 1 .flowEntry with keyAllowed := true }

def blockEntry (l : Lexer) : Except Fault Lexer := do
  if !l.inFlow && !l.keyAllowed then .error .entryNotAllowed
  let l := l.openBlock l.cursor.column l.count .blockSequenceStart
  let l ← l.dropKey
  return { l.take 1 .blockEntry with keyAllowed := true }

def explicitKey (l : Lexer) : Except Fault Lexer := do
  if !l.inFlow && !l.keyAllowed then .error .keyNotAllowed
  let l := l.openBlock l.cursor.column l.count .blockMappingStart
  let l ← l.dropKey
  return { l.take 1 .key with keyAllowed := !l.inFlow }

def value (l : Lexer) : Except Fault Lexer := do
  match ← l.liveKey with
  | some k =>
    let l := (l.insertAt k.position .key).openBlock k.column k.position .blockMappingStart
    return { l.take 1 .value with keys := none :: l.keys.tail, keyAllowed := false }
  | none =>
    if !l.inFlow && !l.keyAllowed then .error .valueNotAllowed
    let l := l.openBlock l.cursor.column l.count .blockMappingStart
    return { l.take 1 .value with keys := none :: l.keys.tail, keyAllowed := !l.inFlow }

/-- A token that may begin a key, read by a function on the cursor. -/
def keyStart (l : Lexer) (read : Cursor → Except Fault (Token × Cursor)) : Except Fault Lexer := do
  let l ← l.markKey
  let (t, c) ← read l.cursor
  return { l.push t with cursor := c, keyAllowed := false }

def quotedToken (single : Bool) (c : Cursor) : Except Fault (Token × Cursor) :=
  (quotedScalar single c).map fun (s, c) => (.scalar (String.ofList s) false, c)

def block (l : Lexer) (literal : Bool) : Except Fault Lexer := do
  let l ← l.dropKey
  let (s, c) ← blockScalar literal l.indent l.cursor
  return { l.push (.scalar (String.ofList s) false) with cursor := c, keyAllowed := true }

def plain (l : Lexer) : Except Fault Lexer := do
  let l ← l.markKey
  let (s, c, broken) ← plainScalar l.inFlow (l.indent + 1).toNat l.cursor
  return { l.push (.scalar (String.ofList s) true) with cursor := c, keyAllowed := broken }

/-- Whether a plain scalar may begin with a character. -/
def beginsPlain (l : Lexer) (x : Char) (next : Option Char) : Bool :=
  !(isGap x || "-?:,[]\x7b\x7d#&*!|>'\"%@\x60".toList.contains x)
    || (x = '-' && !next.any isBlank)
    || (!l.inFlow && (x = '?' || x = ':') && !endsWord next)

/-- The token that begins with a character. -/
def token (l : Lexer) (x : Char) : Except Fault Lexer :=
  let c := l.cursor
  let alone := endsWord (c.ahead 1)
  if c.column = 0 && x = '%' then l.directive
  else if c.atMarker "---" then l.documentMark .documentStart
  else if c.atMarker "..." then l.documentMark .documentEnd
  else if x = '[' then l.flowStart .flowSequenceStart
  else if x = '\x7b' then l.flowStart .flowMappingStart
  else if x = ']' then l.flowEnd .flowSequenceEnd
  else if x = '\x7d' then l.flowEnd .flowMappingEnd
  else if x = ',' then l.flowEntry
  else if x = '-' && alone then l.blockEntry
  else if x = '?' && (l.inFlow || alone) then l.explicitKey
  else if x = ':' && (l.inFlow || alone) then l.value
  else if x = '*' then l.keyStart fun c => (anchorName c).map fun (n, c) => (.alias n, c)
  else if x = '&' then l.keyStart fun c => (anchorName c).map fun (n, c) => (.anchor n, c)
  else if x = '!' then l.keyStart (tagToken l.inFlow)
  else if x = '|' && !l.inFlow then l.block true
  else if x = '>' && !l.inFlow then l.block false
  else if x = '\'' then l.keyStart (quotedToken true)
  else if x = '"' then l.keyStart (quotedToken false)
  else if l.beginsPlain x (c.ahead 1) then l.plain
  else .error .unknownToken

/-- All tokens up to the end of the text. -/
def run : Nat → Lexer → Except Fault Lexer
  | 0, _ => .error .tooLong
  | fuel + 1, l =>
    let l := skipToToken (l.cursor.rest.length + 1) l
    match l.cursor.peek with
    | none => l.endOfText
    | some x =>
      match (l.unindent l.cursor.column).token x with
      | .error e => .error e
      | .ok l => run fuel l

end Lexer

/-- The tokens of a text. -/
def tokens (s : String) : Except Fault (List Token) :=
  match source? s with
  | none => .error .forbiddenCharacter
  | some source => ((Lexer.start source).run (source.length + 2)).map (·.tokens.reverse)

end TestBench.Yaml
