import TestBench.Yaml.Cursor
import TestBench.Text.Whole
/-
  The text of YAML scalars.

  1. Between the words of a plain or quoted scalar stands a gap of blanks and breaks.  Inside a line
     the blanks are kept; a single break is folded into one blank, and of several breaks the first is
     dropped (`Gap.text`).
  2. A block scalar is a header, then lines deeper than what surrounds them; folding joins lines that
     are not themselves indented, and the chomping mark decides what is kept of the last breaks.
-/
namespace TestBench.Yaml

open TestBench.Text

/-- Why text is not YAML. -/
inductive Fault where
  | forbiddenCharacter
  | tabInIndentation
  | unclosedQuote
  | markerInQuote
  | unknownEscape
  | badBlockHeader
  | colonInFlow
  | missingColon
  | valueNotAllowed
  | entryNotAllowed
  | keyNotAllowed
  | unknownDirective
  | badDirective
  | badAnchor
  | badTag
  | unknownToken
  | unexpectedToken
  | undefinedTagHandle
  | unknownAnchor
  | tooLong
  deriving Repr, DecidableEq, Inhabited

/-! ## Gaps -/

/-- What stands between two words: blanks, or a first break and the breaks after it. -/
structure Gap where
  blanks : List Char
  broken : Bool
  first : List Char
  more : List Char

namespace Gap

def none : Gap := ⟨[], false, [], []⟩

def addBlank (g : Gap) (c : Char) : Gap :=
  if g.broken then g else { g with blanks := g.blanks ++ [c] }

def addBreak (g : Gap) (c : Char) : Gap :=
  if g.broken then { g with more := g.more ++ [c] }
  else { g with blanks := [], broken := true, first := [c] }

/-- The text that a gap stands for. -/
def text (g : Gap) : List Char :=
  if g.broken then
    if g.first = ['\n'] then (if g.more.isEmpty then [' '] else g.more)
    else g.first ++ g.more
  else g.blanks

/-- Reads blanks and breaks.  After a break a tab left of `margin` is refused. -/
def read (margin : Nat) : Nat → Gap → Cursor → Except Fault (Gap × Cursor)
  | 0, _, _ => .error .tooLong
  | fuel + 1, g, c =>
    match c.peek with
    | some x =>
      if isBlank x then
        if g.broken && c.column < margin && x == '\t' then .error .tabInIndentation
        else read margin fuel (g.addBlank x) (c.skip 1)
      else if isBreak x then read margin fuel (g.addBreak x) c.skipBreak
      else .ok (g, c)
    | Option.none => .ok (g, c)

end Gap

/-! ## Quoted scalars -/

/-- How a character after a backslash is read: as a character, or as a code of some digits. -/
inductive Escape where
  | char (c : Char)
  | code (digits : Nat)

def escape? (c : Char) : Option Escape :=
  match c with
  | '0' => some (.char (Char.ofNat 0))
  | 'a' => some (.char (Char.ofNat 7))
  | 'b' => some (.char (Char.ofNat 8))
  | 't' | '\t' => some (.char '\t')
  | 'n' => some (.char '\n')
  | 'v' => some (.char (Char.ofNat 11))
  | 'f' => some (.char (Char.ofNat 12))
  | 'r' => some (.char '\r')
  | 'e' => some (.char (Char.ofNat 27))
  | ' ' => some (.char ' ')
  | '"' => some (.char '"')
  | '/' => some (.char '/')
  | '\\' => some (.char '\\')
  | 'N' => some (.char (Char.ofNat 0x85))
  | '_' => some (.char (Char.ofNat 0xA0))
  | 'L' => some (.char (Char.ofNat 0x2028))
  | 'P' => some (.char (Char.ofNat 0x2029))
  | 'x' => some (.code 2)
  | 'u' => some (.code 4)
  | 'U' => some (.code 8)
  | _ => none

/-- The character of a code point; halves of pairs and numbers beyond Unicode have none. -/
def charOfCode? (n : Nat) : Option Char :=
  if (0xD800 ≤ n ∧ n ≤ 0xDFFF) ∨ 0x10FFFF < n then none else some (Char.ofNat n)

/-- The part of a quoted scalar up to the next gap or the closing quote: its text, the place
    behind, and whether an escaped break ended it. -/
def quotedWord (single : Bool) : Nat → List Char → Cursor →
    Except Fault (List Char × Cursor × Bool)
  | 0, _, _ => .error .tooLong
  | fuel + 1, done, c =>
    match c.peek with
    | none => .ok (done, c, false)
    | some x =>
      if isGap x then .ok (done, c, false)
      else if single then
        if x = '\'' then
          if c.ahead 1 == some '\'' then quotedWord single fuel (done ++ ['\'']) (c.skip 2)
          else .ok (done, c, false)
        else quotedWord single fuel (done ++ [x]) (c.skip 1)
      else if x = '"' then .ok (done, c, false)
      else if x = '\\' then
        match c.ahead 1 with
        | none => .error .unknownEscape
        | some y =>
          if isBreak y then .ok (done, (c.skip 1).skipBreak, true)
          else match escape? y with
            | none => .error .unknownEscape
            | some (.char z) => quotedWord single fuel (done ++ [z]) (c.skip 2)
            | some (.code n) =>
              let digits := (c.skip 2).rest.take n
              match if digits.length = n then (digits? 16 digits).bind charOfCode? else none with
              | none => .error .unknownEscape
              | some z => quotedWord single fuel (done ++ [z]) (c.skip (2 + n))
      else quotedWord single fuel (done ++ [x]) (c.skip 1)

/-- The rest of a quoted scalar, from behind its opening quote to behind its closing quote. -/
def quotedRest (single : Bool) : Nat → List Char → Cursor → Except Fault (List Char × Cursor)
  | 0, _, _ => .error .tooLong
  | fuel + 1, done, c =>
    if c.atDocumentMarker then .error .markerInQuote
    else if c.atEnd then .error .unclosedQuote
    else
      match quotedWord single (fuel + 1) [] c with
      | .error e => .error e
      | .ok (word, c, escaped) =>
        let done := done ++ word
        if c.looksAt (if single then '\'' else '"') then .ok (done, c.skip 1)
        else
          let gap := if escaped then { Gap.none with broken := true } else Gap.none
          match gap.read 0 (fuel + 1) c with
          | .error e => .error e
          | .ok (gap, c) => quotedRest single fuel (done ++ gap.text) c

/-- A quoted scalar that begins at the cursor. -/
def quotedScalar (single : Bool) (c : Cursor) : Except Fault (List Char × Cursor) :=
  quotedRest single (c.rest.length + 1) [] (c.skip 1)

/-! ## Plain scalars -/

/-- Marks that end a plain scalar inside brackets. -/
def flowMarks : String := ",[]\x7b\x7d"

/-- Whether the character at the cursor ends a plain scalar, blanks apart. -/
def endsPlain (inFlow : Bool) (c : Cursor) : Bool :=
  (c.looksAt ':' && endsWord (c.ahead 1)) || (inFlow && c.looksAtAny flowMarks)

/-- A word of a plain scalar. -/
def plainWord (inFlow : Bool) : Nat → List Char → Cursor → Except Fault (List Char × Cursor)
  | 0, _, _ => .error .tooLong
  | fuel + 1, done, c =>
    match c.peek with
    | none => .ok (done, c)
    | some x =>
      if isGap x then .ok (done, c)
      else if inFlow && x == ':' && (c.ahead 1).any (flowMarks ++ "?").toList.contains then
        .error .colonInFlow
      else if endsPlain inFlow c then .ok (done, c)
      else plainWord inFlow fuel (done ++ [x]) (c.skip 1)

/-- The rest of a plain scalar behind a gap: its text, the place behind all gaps, and whether the
    last gap held a break. -/
def plainRest (inFlow : Bool) (margin : Nat) : Nat → List Char → Gap → Cursor →
    Except Fault (List Char × Cursor × Bool)
  | 0, _, _, _ => .error .tooLong
  | fuel + 1, done, gap, c =>
    if c.atDocumentMarker || c.looksAt '#' then .ok (done, c, gap.broken)
    else
      match plainWord inFlow (fuel + 1) [] c with
      | .error e => .error e
      | .ok (word, c) =>
        let done := if word.isEmpty then done else done ++ gap.text ++ word
        let gap := if word.isEmpty then gap else Gap.none
        if !c.peek.any isGap then .ok (done, c, gap.broken)
        else
          match gap.read margin (fuel + 1) c with
          | .error e => .error e
          | .ok (gap, c) =>
            if !inFlow && c.column < margin then .ok (done, c, gap.broken)
            else plainRest inFlow margin fuel done gap c

/-- A plain scalar that begins at the cursor; its lines start at `margin` or further right. -/
def plainScalar (inFlow : Bool) (margin : Nat) (c : Cursor) :
    Except Fault (List Char × Cursor × Bool) :=
  plainRest inFlow margin (c.rest.length + 1) [] Gap.none c

/-! ## Block scalars -/

/-- What is kept of the breaks at the end. -/
inductive Chomping where
  | strip
  | clip
  | keep
  deriving DecidableEq

/-- The indentation digit of a header. -/
def indentDigit? (c : Cursor) : Except Fault (Option Nat × Cursor) :=
  match c.peek.bind digitValue? with
  | none => .ok (none, c)
  | some 0 => .error .badBlockHeader
  | some n => .ok (some n, c.skip 1)

def chompMark (c : Cursor) : Option Chomping × Cursor :=
  if c.looksAt '+' then (some .keep, c.skip 1)
  else if c.looksAt '-' then (some .strip, c.skip 1)
  else (none, c)

/-- The marks of a header, in either order. -/
def blockMarks (c : Cursor) : Except Fault (Chomping × Option Nat × Cursor) :=
  match chompMark c with
  | (some chomping, c) => (indentDigit? c).map fun (n, c) => (chomping, n, c)
  | (none, c) =>
    match indentDigit? c with
    | .error e => .error e
    | .ok (none, c) => .ok (.clip, none, c)
    | .ok (some n, c) =>
      let (chomping, c) := chompMark c
      .ok (chomping.getD .clip, some n, c)

/-- Moves over blanks and a comment to the end of the line and over its break. -/
def finishLine (fault : Fault) (c : Cursor) : Except Fault Cursor :=
  let c := c.skipWhile isBlank
  let c := if c.looksAt '#' then c.skipLine else c
  match c.peek with
  | none => .ok c
  | some x => if isBreak x then .ok c.skipBreak else .error fault

/-- Reads the breaks before a line of content.  While the indentation is unknown (`0`), `widest` is
    the largest column seen. -/
def blockBreaks (indent : Nat) : Nat → Nat → List Char → Cursor →
    Except Fault (Nat × List Char × Cursor)
  | 0, _, _, _ => .error .tooLong
  | fuel + 1, widest, breaks, c =>
    let room := if indent = 0 then c.rest.length else indent - c.column
    let blanks := (c.rest.take room).takeWhile (· = ' ')
    let c := c.skip blanks.length
    let widest := max widest c.column
    if (indent = 0 || c.column < indent) && c.looksAt '\t' then .error .tabInIndentation
    else
      match c.peek with
      | some x =>
        if isBreak x then blockBreaks indent fuel widest (breaks ++ [x]) c.skipBreak
        else .ok (widest, breaks, c)
      | none => .ok (widest, breaks, c)

/-- The lines of a block scalar.  `lead` is the break before the current line, `breaks` are the
    empty lines after it, and `deeper` says that the line before began with a blank. -/
def blockLines (literal : Bool) (indent : Nat) : Nat → List Char → List Char → List Char → Bool →
    Cursor → Except Fault (List Char × List Char × List Char × Cursor)
  | 0, _, _, _, _, _ => .error .tooLong
  | fuel + 1, done, lead, breaks, deeper, c =>
    if c.column ≠ indent || c.atEnd then .ok (done, lead, breaks, c)
    else
      let blank := c.peek.any isBlank
      let joint :=
        if !literal && lead.head? == some '\n' && !deeper && !blank then
          (if breaks.isEmpty then [' '] else [])
        else lead
      let (content, c) := c.span fun x => !isBreak x
      let done := done ++ joint ++ breaks ++ content
      let (lead, c) := match c.peek with
        | some x => ([x], c.skipBreak)
        | none => ([], c)
      match blockBreaks indent (fuel + 1) 0 [] c with
      | .error e => .error e
      | .ok (_, breaks, c) => blockLines literal indent fuel done lead breaks blank c

/-- A block scalar that begins at the cursor, inside a block of the given indentation, which is
    `-1` at the top. -/
def blockScalar (literal : Bool) (parent : Int) (c : Cursor) :
    Except Fault (List Char × Cursor) := do
  let (chomping, digit, c) ← blockMarks (c.skip 1)
  let c ← finishLine .badBlockHeader c
  let fuel := c.rest.length + 2
  let given := digit.map fun n => (max parent 0).toNat + n
  let (widest, breaks, c) ← blockBreaks (given.getD 0) fuel 0 [] c
  let indent := given.getD (max widest (max (parent + 1).toNat 1))
  let (done, lead, breaks, c) ← blockLines literal indent fuel [] [] breaks false c
  let tail := match chomping with
    | .strip => []
    | .clip => lead
    | .keep => lead ++ breaks
  return (done ++ tail, c)

end TestBench.Yaml
