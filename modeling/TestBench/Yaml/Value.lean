import TestBench.Json.Basic
/-
  YAML values, once tags, quotes and spellings are resolved.

  1. A mapping is a list of entries in the order of the text; keys may be any values.
  2. Two keys are the same if they are the same value, where entries of a mapping may stand in any
     order, every not-a-number is the same as every other, and a tag may lack its mark.
-/
namespace TestBench

open TestBench.Decimal

/-- A YAML value. -/
inductive Yaml where
  | null
  | bool (value : Bool)
  | number (value : Number)
  | text (value : String)
  | sequence (items : List Yaml)
  | mapping (entries : List (Yaml × Yaml))
  | tagged (tag : String) (value : Yaml)
  deriving Repr, Inhabited

namespace Yaml

/-- The entries of a mapping. -/
abbrev Entries := List (Yaml × Yaml)

/-- The same number as a key: whole numbers and others are different. -/
def sameNumber : Number → Number → Bool
  | .int a, .int b => a == b
  | .float a, .float b => a.same b || (a == .nan && b == .nan)
  | _, _ => false

mutual

/-- Whether two values are the same key. -/
def sameKey : Yaml → Yaml → Bool
  | .null, .null => true
  | .bool a, .bool b => a == b
  | .number a, .number b => sameNumber a b
  | .text a, .text b => a == b
  | .sequence as, .sequence bs => sameItems as bs
  | .mapping as, .mapping bs => as.length == bs.length && allIn as bs
  | .tagged s a, .tagged t b => s == t && sameKey a b
  | _, _ => false

def sameItems : List Yaml → List Yaml → Bool
  | [], [] => true
  | a :: as, b :: bs => sameKey a b && sameItems as bs
  | _, _ => false

/-- Whether every entry of the first list is in the second. -/
def allIn : List (Yaml × Yaml) → List (Yaml × Yaml) → Bool
  | [], _ => true
  | (k, v) :: rest, bs => entryIn k v bs && allIn rest bs

def entryIn (k v : Yaml) : List (Yaml × Yaml) → Bool
  | [] => false
  | (k', v') :: rest => (sameKey k k' && sameKey v v') || entryIn k v rest

end

/-- The value of a textual key. -/
def lookup (key : String) : List (Yaml × Yaml) → Option Yaml
  | [] => none
  | (.text k, v) :: rest => if k = key then some v else lookup key rest
  | _ :: rest => lookup key rest

/-- Whether a key occurs in entries. -/
def hasKey (key : Yaml) (entries : List (Yaml × Yaml)) : Bool := entries.any fun e => sameKey e.1 key

/-- Whether some key occurs twice. -/
def repeatsKey : List (Yaml × Yaml) → Bool
  | [] => false
  | (k, _) :: rest => hasKey k rest || repeatsKey rest

/-- The text of a textual value. -/
def text? : Yaml → Option String
  | .text s => some s
  | _ => none

/-- The value without the tags around it. -/
def untagged : Yaml → Yaml
  | .tagged _ v => v.untagged
  | v => v

end Yaml
end TestBench
