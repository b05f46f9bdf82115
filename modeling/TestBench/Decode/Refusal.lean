import TestBench.Json.Printer
import TestBench.Text.Quoted
/-
  Why a document cannot be decoded.
-/
namespace TestBench

open TestBench.Text

inductive Refusal where
  | missingField (name : String)
  | duplicateField (name : String)
  | invalidType (found expected : String)
  | invalidValue (found expected : String)
  | invalidLength (length : Nat) (expected : String)
  | noVariant (name : String)
  /-- A text that does not follow the grammar of its format, or a value the format cannot hold. -/
  | unreadable
  deriving Repr, DecidableEq, Inhabited

namespace Refusal

def message : Refusal → String
  | missingField name => s!"missing field \x60{name}\x60"
  | duplicateField name => s!"duplicate field \x60{name}\x60"
  | invalidType found expected => s!"invalid type: {found}, expected {expected}"
  | invalidValue found expected => s!"invalid value: {found}, expected {expected}"
  | invalidLength length expected => s!"invalid length {length}, expected {expected}"
  | noVariant name => s!"data did not match any variant of untagged enum {name}"
  | unreadable => "unreadable"

end Refusal

/-! ## How messages name what was found -/

def foundBool (b : Bool) : String := s!"boolean \x60{b}\x60"

def foundInt (n : Int) : String := s!"integer \x60{n}\x60"

def foundFloat (text : String) : String := s!"floating point \x60{text}\x60"

def foundText (s : String) : String := s!"string {quoted s}"

/-- What a JSON value is called in messages. -/
def Json.found : Json → String
  | .null => "null"
  | .bool b => foundBool b
  | .number (.int n) => foundInt n
  | .number (.float x) => foundFloat (Json.floatStyle.text x)
  | .text s => foundText s
  | .array _ => "sequence"
  | .object _ => "map"

end TestBench
