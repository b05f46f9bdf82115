import TestBench.Yaml.Token
/-
  The nodes of a YAML document as they are written, with anchors and aliases.

  1. Tokens are read by recursive descent, one function for each form of collection; each takes a
     bound on the depth of its own recursion, which the number of tokens provides.
  2. An anchor is numbered by how many different names were bound before it in the document; an alias
     stands for the number of its name at that place.  A name that is bound again takes a number that
     the next new name may take too, and a number stands for the last node that has it.
-/
namespace TestBench.Yaml

/-- A node as it is written.  `target` and `anchor` are numbers of anchors. -/
inductive Tree where
  | alias (target : Nat)
  | scalar (anchor : Option Nat) (tag : Option String) (text : String) (plain : Bool)
  | sequence (anchor : Option Nat) (tag : Option String) (items : List Tree)
  | mapping (anchor : Option Nat) (tag : Option String) (entries : List (Tree × Tree))
  deriving Repr, Inhabited

/-- The state of reading: the tokens that are left, the numbers of anchor names and the meanings of
    tag handles. -/
structure Reading where
  tokens : List Token
  anchors : List (String × Nat)
  handles : List (String × String)

namespace Reading

def peek (r : Reading) : Option Token := r.tokens.head?

def drop (r : Reading) : Reading := { r with tokens := r.tokens.tail }

def looksAtAny (r : Reading) (ts : List Token) : Bool := r.peek.any ts.contains

/-- Binds a name and gives its number. -/
def bindAnchor (r : Reading) (name : String) : Nat × Reading :=
  let n := r.anchors.length
  (n, { r with anchors := (name, n) :: r.anchors.filter (·.1 ≠ name) })

end Reading

/-- What may stand in front of a node. -/
structure Properties where
  anchor : Option String
  tag : Option (String × String)

def Properties.isEmpty (p : Properties) : Bool := p.anchor.isNone && p.tag.isNone

/-- An anchor and a tag, in either order. -/
def readProperties (r : Reading) : Properties × Reading :=
  match r.tokens with
  | .anchor a :: .tag h s :: rest => (⟨some a, some (h, s)⟩, { r with tokens := rest })
  | .tag h s :: .anchor a :: rest => (⟨some a, some (h, s)⟩, { r with tokens := rest })
  | .anchor a :: rest => (⟨some a, none⟩, { r with tokens := rest })
  | .tag h s :: rest => (⟨none, some (h, s)⟩, { r with tokens := rest })
  | _ => (⟨none, none⟩, r)

/-- The full tag of a handle and a suffix; an empty handle leaves the suffix as it is. -/
def resolveTag (r : Reading) : Option (String × String) → Except Fault (Option String)
  | none => .ok none
  | some (handle, suffix) =>
    if handle.isEmpty then .ok (some suffix)
    else match r.handles.find? (·.1 == handle) with
      | some (_, expansion) => .ok (some (expansion ++ suffix))
      | none => .error .undefinedTagHandle

def emptyScalar : Tree := .scalar none none "" true

/-- The token that marks an entry, and the tokens that end one. -/
def blockEntryEnds : List Token := [.blockEntry, .blockEnd]
def looseEntryEnds : List Token := [.blockEntry, .key, .value, .blockEnd]
def blockPairEnds : List Token := [.key, .value, .blockEnd]
def flowPairEnds : List Token := [.value, .flowEntry, .flowMappingEnd]

mutual

/-- A node.  `inBlock` admits block collections, `loose` a sequence that is not indented. -/
def readNode (inBlock loose : Bool) : Nat → Reading → Except Fault (Tree × Reading)
  | 0, _ => .error .tooLong
  | fuel + 1, r =>
    match r.peek with
    | some (.alias name) =>
      match r.anchors.lookup name with
      | some n => .ok (.alias n, r.drop)
      | none => .error .unknownAnchor
    | _ => do
      let (properties, r) := readProperties r
      let tag ← resolveTag r properties.tag
      let (anchor, r) := match properties.anchor with
        | some name => let (n, r) := r.bindAnchor name; (some n, r)
        | none => (none, r)
      match r.peek with
      | some .blockEntry =>
        if loose then do
          let (items, r) ← looseSequence fuel [] r
          return (.sequence anchor tag items, r)
        else if properties.isEmpty then .error .unexpectedToken
        else return (.scalar anchor tag "" true, r)
      | some (.scalar text plain) =>
        if tag == some "!" then return (.scalar anchor none text plain, r.drop)
        else return (.scalar anchor tag text plain, r.drop)
      | some .flowSequenceStart =>
        let (items, r) ← flowSequence true fuel [] r.drop
        return (.sequence anchor tag items, r)
      | some .flowMappingStart =>
        let (entries, r) ← flowMapping true fuel [] r.drop
        return (.mapping anchor tag entries, r)
      | some .blockSequenceStart =>
        if inBlock then do
          let (items, r) ← blockSequence fuel [] r.drop
          return (.sequence anchor tag items, r)
        else if properties.isEmpty then .error .unexpectedToken
        else return (.scalar anchor tag "" true, r)
      | some .blockMappingStart =>
        if inBlock then do
          let (entries, r) ← blockMapping fuel [] r.drop
          return (.mapping anchor tag entries, r)
        else if properties.isEmpty then .error .unexpectedToken
        else return (.scalar anchor tag "" true, r)
      | _ =>
        if properties.isEmpty then .error .unexpectedToken
        else return (.scalar anchor tag "" true, r)

/-- A node unless one of the given tokens follows, which stand for an empty one. -/
def readUnless (ends : List Token) (inBlock loose : Bool) :
    Nat → Reading → Except Fault (Tree × Reading)
  | 0, _ => .error .tooLong
  | fuel + 1, r =>
    if r.looksAtAny ends then .ok (emptyScalar, r) else readNode inBlock loose fuel r

/-- The entries of an indented sequence, up to and including its end. -/
def blockSequence : Nat → List Tree → Reading → Except Fault (List Tree × Reading)
  | 0, _, _ => .error .tooLong
  | fuel + 1, done, r =>
    match r.peek with
    | some .blockEntry => do
      let (item, r) ← readUnless blockEntryEnds true false fuel r.drop
      blockSequence fuel (item :: done) r
    | some .blockEnd => .ok (done.reverse, r.drop)
    | _ => .error .unexpectedToken

/-- The entries of a sequence that stands as far left as the key above it. -/
def looseSequence : Nat → List Tree → Reading → Except Fault (List Tree × Reading)
  | 0, _, _ => .error .tooLong
  | fuel + 1, done, r =>
    match r.peek with
    | some .blockEntry => do
      let (item, r) ← readUnless looseEntryEnds true false fuel r.drop
      looseSequence fuel (item :: done) r
    | _ => .ok (done.reverse, r)

/-- The entries of a block mapping, up to and including its end. -/
def blockMapping : Nat → List (Tree × Tree) → Reading →
    Except Fault (List (Tree × Tree) × Reading)
  | 0, _, _ => .error .tooLong
  | fuel + 1, done, r =>
    match r.peek with
    | some .key => do
      let (key, r) ← readUnless blockPairEnds true true fuel r.drop
      if r.peek == some .value then
        let (value, r) ← readUnless blockPairEnds true true fuel r.drop
        blockMapping fuel ((key, value) :: done) r
      else blockMapping fuel ((key, emptyScalar) :: done) r
    | some .blockEnd => .ok (done.reverse, r.drop)
    | _ => .error .unexpectedToken

/-- The items between brackets, up to and including the closing one. -/
def flowSequence (first : Bool) : Nat → List Tree → Reading → Except Fault (List Tree × Reading)
  | 0, _, _ => .error .tooLong
  | fuel + 1, done, r =>
    if r.peek == some .flowSequenceEnd then .ok (done.reverse, r.drop)
    else if !first && r.peek != some .flowEntry then .error .unexpectedToken
    else do
      let r := if first then r else r.drop
      match r.peek with
      | some .flowSequenceEnd => return (done.reverse, r.drop)
      | some .key =>
        let (pair, r) ← flowPair fuel r.drop
        flowSequence false fuel (.mapping none none [pair] :: done) r
      | _ =>
        let (item, r) ← readNode false false fuel r
        flowSequence false fuel (item :: done) r

/-- A single pair inside brackets.  Where its key is missing, the token in its place is lost. -/
def flowPair : Nat → Reading → Except Fault ((Tree × Tree) × Reading)
  | 0, _ => .error .tooLong
  | fuel + 1, r => do
    let (key, r) ←
      if r.looksAtAny [.value, .flowEntry, .flowSequenceEnd] then .ok (emptyScalar, r.drop)
      else readNode false false fuel r
    if r.peek == some .value then
      let (value, r) ← readUnless [.flowEntry, .flowSequenceEnd] false false fuel r.drop
      return ((key, value), r)
    else return ((key, emptyScalar), r)

/-- The pairs between braces, up to and including the closing one. -/
def flowMapping (first : Bool) : Nat → List (Tree × Tree) → Reading →
    Except Fault (List (Tree × Tree) × Reading)
  | 0, _, _ => .error .tooLong
  | fuel + 1, done, r =>
    if r.peek == some .flowMappingEnd then .ok (done.reverse, r.drop)
    else if !first && r.peek != some .flowEntry then .error .unexpectedToken
    else do
      let r := if first then r else r.drop
      match r.peek with
      | some .flowMappingEnd => return (done.reverse, r.drop)
      | some .key =>
        let (key, r) ← readUnless flowPairEnds false false fuel r.drop
        if r.peek == some .value then
          let (value, r) ← readUnless [.flowEntry, .flowMappingEnd] false false fuel r.drop
          flowMapping false fuel ((key, value) :: done) r
        else flowMapping false fuel ((key, emptyScalar) :: done) r
      | _ =>
        let (key, r) ← readNode false false fuel r
        flowMapping false fuel ((key, emptyScalar) :: done) r

end

/-! ## Documents -/

/-- The meanings that handles have in every document. -/
def standardHandles : List (String × String) := [("!", "!"), ("!!", "tag:yaml.org,2002:")]

def isDirective : Token → Bool
  | .versionDirective .. => true
  | .tagDirective .. => true
  | _ => false

/-- Reads directives: at most one version, and each handle at most once. -/
def readDirectives : List Token → Bool → List (String × String) →
    Except Fault (List Token × List (String × String))
  | .versionDirective major minor :: rest, versioned, handles =>
    if versioned || major ≠ 1 || (minor ≠ 1 && minor ≠ 2) then .error .badDirective
    else readDirectives rest true handles
  | .tagDirective handle expansion :: rest, versioned, handles =>
    if (handles.lookup handle).isSome then .error .badDirective
    else readDirectives rest versioned ((handle, expansion) :: handles)
  | ts, _, handles => .ok (ts, handles)

/-- Whether the content of a document is missing before a token. -/
def endsContent : Option Token → Bool
  | none => true
  | some t => isDirective t || t == .documentStart || t == .documentEnd

/-- The root of a document at the tokens given. -/
def readRoot (fuel : Nat) (ts : List Token) (handles : List (String × String)) :
    Except Fault (Tree × List Token) :=
  if endsContent ts.head? then .ok (emptyScalar, ts)
  else
    (readNode true false fuel ⟨ts, [], handles ++ standardHandles⟩).map fun (t, r) => (t, r.tokens)

/-- The documents of a stream of tokens.  Only the first may do without an explicit start. -/
def readDocuments (bound : Nat) : Nat → Bool → List Token → Except Fault (List Tree)
  | 0, _, _ => .error .tooLong
  | fuel + 1, first, ts => do
    let ts := if first then ts else ts.dropWhile (· == .documentEnd)
    if ts.isEmpty then return []
    let (t, rest) ←
      if first && ts.head?.any fun t => !isDirective t && t != .documentStart then
        (readNode true false bound ⟨ts, [], standardHandles⟩).map fun (t, r) => (t, r.tokens)
      else do
        let (ts, handles) ← readDirectives ts false []
        match ts with
        | .documentStart :: ts => readRoot bound ts handles
        | _ => .error .unexpectedToken
    let rest := match rest with
      | .documentEnd :: rest => rest
      | rest => rest
    return t :: (← readDocuments bound fuel false rest)

/-- The documents of a text. -/
def documents (s : String) : Except Fault (List Tree) := do
  let ts ← tokens s
  readDocuments (4 * ts.length + 8) (ts.length + 2) true ts

end TestBench.Yaml
