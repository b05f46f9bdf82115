import TestBench.Json.Token
/-
  Reading JSON values.

  The reader is a machine with a stack: the stack holds the arrays and objects that are still open
  (`Frame`), and the state says what may come next (`Want`).  Reading is one fold over the tokens,
  so it ends on every text.  Objects keep their fields in the order of the text, repeated keys
  included; nesting beyond `depthLimit` is refused.
-/
namespace TestBench.Json

/-- An open array or object, its finished parts last one first. -/
inductive Frame where
  | array (items : List Json)
  | object (fields : List (String × Json)) (key : String)

/-- What may come next. -/
inductive Want where
  | value
  | itemOrEnd
  | itemEnd
  | keyOrEnd
  | key
  | colon
  | fieldEnd
  | nothing (v : Json)

abbrev ReadState := Want × List Frame

/-- The number of arrays and objects that may be open at once, and one more. -/
def depthLimit : Nat := 128

/-- A finished value, put into the innermost open frame. -/
def finish (v : Json) : List Frame → ReadState
  | [] => (.nothing v, [])
  | .array items :: rest => (.itemEnd, .array (v :: items) :: rest)
  | .object fields key :: rest => (.fieldEnd, .object ((key, v) :: fields) key :: rest)

def openFrame (want : Want) (frame : Frame) (frames : List Frame) : Option ReadState :=
  if frames.length + 1 < depthLimit then some (want, frame :: frames) else none

def startValue (frames : List Frame) : Token → Option ReadState
  | .atom v => some (finish v frames)
  | .text s => some (finish (.text s) frames)
  | .mark c =>
    if c = '[' then openFrame .itemOrEnd (.array []) frames
    else if c = '\x7b' then openFrame .keyOrEnd (.object [] "") frames
    else none

/-- Closes the innermost frame if the mark is its closing mark. -/
def closeFrame (c : Char) : List Frame → Option ReadState
  | .array items :: rest => if c = ']' then some (finish (.array items.reverse) rest) else none
  | .object fields _ :: rest =>
    if c = '\x7d' then some (finish (.object fields.reverse) rest) else none
  | [] => none

def readKey (s : String) : List Frame → Option ReadState
  | .object fields _ :: rest => some (.colon, .object fields s :: rest)
  | _ => none

/-- One token. -/
def readToken : ReadState → Token → Option ReadState
  | (.value, frames), t => startValue frames t
  | (.itemOrEnd, frames), .mark ']' => closeFrame ']' frames
  | (.itemOrEnd, frames), t => startValue frames t
  | (.itemEnd, frames), .mark ',' => some (.value, frames)
  | (.itemEnd, frames), .mark c => closeFrame c frames
  | (.keyOrEnd, frames), .mark c => closeFrame c frames
  | (.keyOrEnd, frames), .text s => readKey s frames
  | (.key, frames), .text s => readKey s frames
  | (.colon, frames), .mark ':' => some (.value, frames)
  | (.fieldEnd, frames), .mark ',' => some (.key, frames)
  | (.fieldEnd, frames), .mark c => closeFrame c frames
  | _, _ => none

/-- The value that a text writes, with the fields of objects in the order of the text. -/
def parse? (s : String) : Option Json :=
  (tokens? s.toList).bind fun ts =>
    match ts.foldlM readToken ((.value, []) : ReadState) with
    | some (.nothing v, _) => some v
    | _ => none

/-- The value that a text writes, with sorted fields. -/
def parseSorted? (s : String) : Option Json := (parse? s).map sorted

end TestBench.Json
