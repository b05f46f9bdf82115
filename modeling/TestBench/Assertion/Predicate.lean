import TestBench.Observed
import TestBench.Decimal.Literal
import TestBench.Text.Blank
import TestBench.Text.Search
/-
  The predicates of assertions.

  1. A predicate has a name, in which letter case matters, and takes an expected text or none.
  2. `Predicate.check` compares the leaf under a path, if there is one, with the expected text and
     says in what they differ (`Mismatch`).
  3. Two texts are equal also when both are numbers of the same value (`looselyEqual`); the order
     predicates need numbers on both sides.
-/
namespace TestBench

open TestBench.Text TestBench.Decimal

inductive Predicate where
  | equal
  | notEqual
  | containSubstring
  | notContainSubstring
  | startWith
  | endWith
  | beEmpty
  | notBeEmpty
  | exist
  | notExist
  | beTrue
  | beFalse
  | beGreaterThan
  | beGreaterThanOrEqualTo
  | beLessThan
  | beLessThanOrEqualTo
  deriving Repr, DecidableEq, Inhabited

namespace Predicate

def name : Predicate → String
  | equal => "ShouldEqual"
  | notEqual => "ShouldNotEqual"
  | containSubstring => "ShouldContainSubstring"
  | notContainSubstring => "ShouldNotContainSubstring"
  | startWith => "ShouldStartWith"
  | endWith => "ShouldEndWith"
  | beEmpty => "ShouldBeEmpty"
  | notBeEmpty => "ShouldNotBeEmpty"
  | exist => "ShouldExist"
  | notExist => "ShouldNotExist"
  | beTrue => "ShouldBeTrue"
  | beFalse => "ShouldBeFalse"
  | beGreaterThan => "ShouldBeGreaterThan"
  | beGreaterThanOrEqualTo => "ShouldBeGreaterThanOrEqualTo"
  | beLessThan => "ShouldBeLessThan"
  | beLessThanOrEqualTo => "ShouldBeLessThanOrEqualTo"

def all : List Predicate :=
  [equal, notEqual, containSubstring, notContainSubstring, startWith, endWith, beEmpty, notBeEmpty,
    exist, notExist, beTrue, beFalse, beGreaterThan, beGreaterThanOrEqualTo, beLessThan,
    beLessThanOrEqualTo]

def ofName? (s : String) : Option Predicate := all.find? (·.name == s)

theorem mem_all (p : Predicate) : p ∈ all := by cases p <;> decide

theorem ofName?_name (p : Predicate) : ofName? p.name = some p := by cases p <;> decide

theorem name_of_ofName? {s : String} {p : Predicate} (h : ofName? s = some p) : p.name = s := by
  simpa using List.find?_some h

/-- Whether the predicate compares with an expected text. -/
def takesExpected : Predicate → Bool
  | beEmpty | notBeEmpty | exist | notExist | beTrue | beFalse => false
  | _ => true

end Predicate

/-! ## Comparisons -/

/-- The number that a text writes, blanks around it apart. -/
def numberIn? (s : String) : Option Binary64 := literal? (trim s.toList)

/-- The same text, or numbers of the same value. -/
def looselyEqual (actual expected : String) : Bool :=
  actual == expected ||
    match numberIn? actual, numberIn? expected with
    | some a, some b => a.same b
    | _, _ => false

/-- Null, the empty text, the empty array and the empty object. -/
def Json.isEmpty : Json → Bool
  | .null => true
  | .text s => s.isEmpty
  | .array items => items.isEmpty
  | .object fields => fields.isEmpty
  | _ => false

/-- The relation between numbers that an order predicate asks for. -/
def Predicate.order? : Predicate → Option (Binary64 → Binary64 → Bool)
  | .beGreaterThan => some fun a b => b.less a
  | .beGreaterThanOrEqualTo => some fun a b => b.atMost a
  | .beLessThan => some Binary64.less
  | .beLessThanOrEqualTo => some Binary64.atMost
  | _ => none

/-! ## Checking -/

/-- Why a leaf does not satisfy a predicate. -/
inductive Mismatch where
  | keyAbsent
  | keyPresent (text : String)
  | notFound
  | notNumbers (text expected : String)
  | got (text : String)
  | gotExpected (text : String) (predicate : Predicate) (expected : String)
  deriving Repr, DecidableEq, Inhabited

def Mismatch.message : Mismatch → String
  | keyAbsent => "key does not exist"
  | keyPresent text => s!"key exists with value '{text}'"
  | notFound => "key not found in result"
  | notNumbers text expected => s!"cannot compare '{text}' and '{expected}' as numbers"
  | got text => s!"got '{text}'"
  | gotExpected text predicate expected =>
    s!"got '{text}', expected {predicate.name} '{expected}'"

namespace Predicate

/-- Whether a leaf satisfies a predicate that is neither about existence nor about order. -/
def accepts (p : Predicate) (leaf : Json) (expected : String) : Bool :=
  let text := leaf.plainText
  match p with
  | equal => looselyEqual text expected
  | notEqual => !looselyEqual text expected
  | containSubstring => occursIn expected.toList text.toList
  | notContainSubstring => !occursIn expected.toList text.toList
  | startWith => expected.toList.isPrefixOf text.toList
  | endWith => expected.toList.isSuffixOf text.toList
  | beEmpty => leaf.isEmpty
  | notBeEmpty => !leaf.isEmpty
  | beTrue => sameIgnoringCase text "true"
  | beFalse => sameIgnoringCase text "false"
  | _ => true

/-- What a refused leaf is reported as. -/
def mismatch (p : Predicate) (leaf : Json) (expected : String) : Mismatch :=
  if p.takesExpected then .gotExpected leaf.plainText p expected else .got leaf.plainText

/-- The verdict on a leaf that is there. -/
def checkLeaf (p : Predicate) (leaf : Json) (expected : String) : Except Mismatch Unit :=
  match p.order? with
  | some holds =>
    match numberIn? leaf.plainText, numberIn? expected with
    | some a, some b => if holds a b then .ok () else .error (p.mismatch leaf expected)
    | _, _ => .error (.notNumbers leaf.plainText expected)
  | none => if p.accepts leaf expected then .ok () else .error (p.mismatch leaf expected)

/-- Checks what stands under a path, `none` if nothing does. -/
def check (p : Predicate) (leaf? : Option Json) (expected : String) : Except Mismatch Unit :=
  match p, leaf? with
  | exist, some _ => .ok ()
  | exist, none => .error .keyAbsent
  | notExist, none => .ok ()
  | notExist, some leaf => .error (.keyPresent leaf.plainText)
  | _, none => .error .notFound
  | p, some leaf => p.checkLeaf leaf expected

end Predicate
end TestBench
