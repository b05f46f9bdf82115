import TestBench.Yaml.Node
import TestBench.Yaml.Value
import TestBench.Decimal.Literal
import TestBench.Text.Search
/-
  Which value a YAML node stands for.

  1. A plain scalar is null, a truth value, a whole number, a floating-point number or text, by its
     spelling alone.  Whole numbers may be written in the bases 16, 8 and 2; digits padded with zeros
     are text.  A whole number that fits 128 bits but not 64 has no value here.
  2. A quoted scalar is text.  The standard tags for truth values, numbers and null force their kind
     on any scalar; a private tag, one that begins with an exclamation mark, is kept with the value;
     all other tags on a scalar make it text.
  3. A mapping in which a key occurs twice has no value.
-/
namespace TestBench.Yaml

open TestBench.Decimal TestBench.Text

/-! ## Spellings -/

def isNullSpelling (s : String) : Bool := ["null", "Null", "NULL", "~"].contains s

def truth? (s : String) : Option Bool :=
  if ["true", "True", "TRUE"].contains s then some true
  else if ["false", "False", "FALSE"].contains s then some false
  else none

def hasSign (s : List Char) : Bool := s.head?.any fun c => c = '+' || c = '-'

/-- More than one digit, the first of them zero, behind an optional sign. -/
def isPadded (s : List Char) : Bool :=
  let digits := if hasSign s then s.drop 1 else s
  digits.head? == some '0' && 1 < digits.length && digits.all Char.isDigit

/-- The base that two characters announce. -/
def baseMarks : List (String × Nat) := [("0x", 16), ("0o", 8), ("0b", 2)]

/-- The number below `limit` that digits behind a base mark write. -/
def based? (limit : Nat) (s : List Char) : Option Nat :=
  baseMarks.findSome? fun (mark, base) =>
    (dropMark? mark.toList s).bind fun rest =>
      (digits? base rest).filter (· < limit)

/-- A whole number below `limit`, with at most one plus sign. -/
def natural? (limit : Nat) (s : List Char) : Option Nat :=
  let body := match s with
    | '+' :: rest => rest
    | _ => s
  match based? limit body with
  | some n => some n
  | none => if hasSign body || isPadded s then none else (digits? 10 body).filter (· < limit)

/-- The size of a negative whole number of at most `limit`. -/
def negative? (limit : Nat) (s : List Char) : Option Nat :=
  match s with
  | '-' :: body =>
    match based? (limit + 1) body with
    | some n => some n
    | none => if isPadded s then none else (digits? 10 body).filter (· ≤ limit)
  | _ => none

/-- A floating-point number, infinities and not-a-number in their own spelling. -/
def float? (s : List Char) : Option Binary64 :=
  let body := match s with
    | '+' :: rest => rest
    | _ => s
  let signedTwice := s.head? == some '+' && hasSign body
  if signedTwice then none
  else if [".inf", ".Inf", ".INF"].contains (String.ofList body) then some (.infinite false)
  else if ["-.inf", "-.Inf", "-.INF"].contains (String.ofList s) then some (.infinite true)
  else if [".nan", ".NaN", ".NAN"].contains (String.ofList s) then some .nan
  else (literal? body).filter Binary64.isFinite

/-- The whole number that a text spells: `none` for no number at all, `some none` for one that
    fits 128 bits but not 64. -/
def whole? (s : List Char) : Option (Option Int) :=
  match natural? wordLimit s, negative? (Nat.pow 2 63) s with
  | some n, _ => some (some n)
  | none, some n => some (some (-(n : Int)))
  | none, none =>
    if (natural? (Nat.pow 2 128) s).isSome || (negative? (Nat.pow 2 127) s).isSome then some none else none

/-- The value of a plain scalar. -/
def plain? (s : String) : Option Yaml :=
  if s.isEmpty || isNullSpelling s then some .null
  else match truth? s with
    | some b => some (.bool b)
    | none =>
      match whole? s.toList with
      | some (some n) => some (.number (.int n))
      | some none => none
      | none =>
        match if isPadded s.toList then none else float? s.toList with
        | some x => some (.number (.float x))
        | none => some (.text s)

/-! ## Tags -/

def boolTag : String := "tag:yaml.org,2002:bool"
def intTag : String := "tag:yaml.org,2002:int"
def floatTag : String := "tag:yaml.org,2002:float"
def nullTag : String := "tag:yaml.org,2002:null"

/-- The name of a private tag, without its mark unless the mark is all of it. -/
def privateTag? (tag : String) : Option String :=
  match tag.toList with
  | '!' :: [] => some "!"
  | '!' :: rest => some (String.ofList rest)
  | _ => none

/-- The value of a scalar whose tag is not private. -/
def scalarValue? (tag : Option String) (s : String) (plain : Bool) : Option Yaml :=
  match tag with
  | none => if plain then plain? s else some (.text s)
  | some tag =>
    if tag == boolTag then (truth? s).map .bool
    else if tag == intTag then (whole? s.toList).bind fun n? => n?.map fun n => .number (.int n)
    else if tag == floatTag then (float? s.toList).map fun x => .number (.float x)
    else if tag == nullTag then (if isNullSpelling s then some .null else none)
    else some (.text s)

/-- Keeps a private tag with a value. -/
def withTag (tag : Option String) (v : Yaml) : Yaml :=
  match tag.bind privateTag? with
  | some name => .tagged name v
  | none => v

namespace Node

mutual

/-- The value of a node. -/
def value? : Node → Option Yaml
  | .scalar tag s plain =>
    match tag.bind privateTag? with
    | some name => (scalarValue? none s plain).map (.tagged name)
    | none => scalarValue? tag s plain
  | .sequence tag items => (itemValues? items).map fun vs => withTag tag (.sequence vs)
  | .mapping tag entries =>
    (entryValues? entries).bind fun es =>
      if repeatsKey es then none else some (withTag tag (.mapping es))
  | .bottomless => none

def itemValues? : List Node → Option (List Yaml)
  | [] => some []
  | n :: rest =>
    match n.value?, itemValues? rest with
    | some v, some vs => some (v :: vs)
    | _, _ => none

def entryValues? : List (Node × Node) → Option (List (Yaml × Yaml))
  | [] => some []
  | (k, v) :: rest =>
    match k.value?, v.value?, entryValues? rest with
    | some k, some v, some es => some ((k, v) :: es)
    | _, _, _ => none

end

/-- Whether a node has the form of nothing at all. -/
def isBlank : Node → Bool
  | .scalar _ s plain => s.isEmpty && plain
  | _ => false

/-- The entries of a mapping, whatever its tag. -/
def entries? : Node → Option Entries
  | .mapping _ entries => (entryValues? entries).filter fun es => !repeatsKey es
  | n => if n.isBlank then some [] else none

end Node
end TestBench.Yaml
