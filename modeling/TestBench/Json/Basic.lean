import TestBench.Decimal.Shortest
/-
  JSON values.

  1. A number is a whole number or a binary floating-point number; `1` and `1.0` are different
     values with different texts.
  2. An object is a list of fields in a definite order.  `insertField` keeps keys sorted by code
     point and lets the later value win; `Json.sorted` brings every object of a value into that
     form, in which a key occurs once.
-/
namespace TestBench

open TestBench.Decimal

/-- A number: whole, or a finite binary floating-point number. -/
inductive Number where
  | int (value : Int)
  | float (value : Binary64)
  deriving Repr, DecidableEq, Inhabited

/-- A JSON value. -/
inductive Json where
  | null
  | bool (value : Bool)
  | number (value : Number)
  | text (value : String)
  | array (items : List Json)
  | object (fields : List (String × Json))
  deriving Repr, Inhabited, BEq

namespace Json

def nat (n : Nat) : Json := .number (.int n)

/-- Puts a field into fields sorted by key; a field of the same key is replaced. -/
def insertField {α : Type} (key : String) (value : α) : List (String × α) → List (String × α)
  | [] => [(key, value)]
  | (k, v) :: rest =>
    if key < k then (key, value) :: (k, v) :: rest
    else if key = k then (key, value) :: rest
    else (k, v) :: insertField key value rest

/-- Fields sorted by key, of each key the last value. -/
def sortFields {α : Type} (fields : List (String × α)) : List (String × α) :=
  fields.foldl (fun sorted (k, v) => insertField k v sorted) []

/-- The value of a key in a list of fields. -/
def lookup {α : Type} (key : String) : List (String × α) → Option α
  | [] => none
  | (k, v) :: rest => if k = key then some v else lookup key rest

theorem lookup_insertField {α : Type} (key key' : String) (value : α) (fields : List (String × α)) :
    lookup key (insertField key' value fields)
      = if key' = key then some value else lookup key fields := by
  induction fields with
  | nil => simp [insertField, lookup]
  | cons f rest ih =>
    obtain ⟨k, v⟩ := f
    simp only [insertField]
    split
    · simp [lookup]
    · split
      · next h => subst h; by_cases hk : key' = key <;> simp [lookup, hk]
      · next h =>
        simp only [lookup, ih]
        by_cases hk : k = key
        · subst hk; simp [h]
        · simp [hk]

mutual

/-- The value with the keys of every object sorted, of each key the last value. -/
def sorted : Json → Json
  | .array items => .array (sortedItems items)
  | .object fields => .object (sortFields (sortedFields fields))
  | v => v

def sortedItems : List Json → List Json
  | [] => []
  | v :: rest => v.sorted :: sortedItems rest

def sortedFields : List (String × Json) → List (String × Json)
  | [] => []
  | (k, v) :: rest => (k, v.sorted) :: sortedFields rest

end

end Json
end TestBench
