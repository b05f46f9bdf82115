import Mathlib
import TestBench.Proofs.ExpressionGrammar
import TestBench.Proofs.Flattening
import TestBench.Proofs.Judging
/-
  Which values are seen to exist.

  1. The two assertions on existence ask for a path in what was flattened, so they see the places where
     something is kept (`Shown`) and no others (`Hidden`).  As expressions they are judged that way
     wherever the path is one word.
  2. A leaf is kept at its place, and the length of an array below the array.  At the place of any other
     value nothing is kept, and as no two places are the same but for letter case, nothing else is found
     there: an array, or an object with fields, is hidden although all that is in it is shown.
-/
namespace TestBench

open TestBench.Text Observed

/-! ## The two assertions on existence -/

namespace Assertion

/-- The expression of a path and a predicate alone. -/
def bare (path : String) (p : Predicate) : String := path ++ " " ++ p.name

/-- A path that is a word and a predicate that takes no expected text are an assertion. -/
theorem parse_bare {path : String} {p : Predicate} (word : IsWord path.toList)
    (alone : p.takesExpected = false) : parse (bare path p) = .ok ⟨path, p, ""⟩ := by
  have hwords : ∀ t ∈ [path, p.name], IsWord t.toList :=
    List.forall_mem_cons.2 ⟨word, List.forall_mem_singleton.2 p.isWord_name⟩
  have hmade : MadeOf [path, p.name] (bare path p) := by
    have hspaced := madeOf_intercalate hwords
    rwa [String.intercalate_cons_cons, String.intercalate_singleton] at hspaced
  exact parse_of_reading hmade (.accepted fun takes => absurd takes (by rw [alone]; decide))

end Assertion

section Seen

variable {observed : Observed} {path : String} {p : Predicate}

/-- A declared expression is judged alone, whatever the defaults are. -/
theorem evaluate_single (expression : String) (defaults : Option (List String)) :
    evaluate observed [expression] defaults = (judge observed expression).verdict := by
  rw [evaluate, effective_eq, if_neg (List.cons_ne_nil _ _), judgeAll, judgeAll]
  exact congrArg₂ Verdict.mk (List.append_nil _) (List.append_nil _)

/-- A predicate that asks for no text passes without a word on it. -/
theorem evaluate_bare_ok (word : IsWord path.toList) (alone : p.takesExpected = false)
    (passes : p.check (observed.get? path) "" = .ok ()) (defaults : Option (List String)) :
    evaluate observed [Assertion.bare path p] defaults = ⟨[], []⟩ := by
  rw [evaluate_single, judge, Assertion.parse_bare word alone]
  dsimp only
  rw [passes]
  rfl

theorem evaluate_bare_error {m : Mismatch} (word : IsWord path.toList)
    (alone : p.takesExpected = false) (fails : p.check (observed.get? path) "" = .error m)
    (defaults : Option (List String)) :
    evaluate observed [Assertion.bare path p] defaults
      = ⟨[], [failureText (Assertion.bare path p) path m]⟩ := by
  rw [evaluate_single, judge, Assertion.parse_bare word alone]
  dsimp only
  rw [fails]
  rfl

/-- A path is seen to exist, with a value that reads as a text. -/
structure Shown (observed : Observed) (path text : String) : Prop where
  exist : ∀ expected, Predicate.exist.check (observed.get? path) expected = .ok ()
  notExist : ∀ expected,
    Predicate.notExist.check (observed.get? path) expected = .error (.keyPresent text)
  passes : IsWord path.toList → ∀ defaults,
    evaluate observed [Assertion.bare path .exist] defaults = ⟨[], []⟩
  fails : IsWord path.toList → ∀ defaults,
    evaluate observed [Assertion.bare path .notExist] defaults
      = ⟨[], [failureText (Assertion.bare path .notExist) path (.keyPresent text)]⟩

/-- A path is seen to be absent. -/
structure Hidden (observed : Observed) (path : String) : Prop where
  exist : ∀ expected, Predicate.exist.check (observed.get? path) expected = .error .keyAbsent
  notExist : ∀ expected, Predicate.notExist.check (observed.get? path) expected = .ok ()
  passes : IsWord path.toList → ∀ defaults,
    evaluate observed [Assertion.bare path .notExist] defaults = ⟨[], []⟩
  fails : IsWord path.toList → ∀ defaults,
    evaluate observed [Assertion.bare path .exist] defaults
      = ⟨[], [failureText (Assertion.bare path .exist) path .keyAbsent]⟩

/-- What is found is shown to exist. -/
theorem shown_of_get? {leaf : Json} (h : observed.get? path = some leaf) :
    Shown observed path leaf.plainText := by
  have hexist (expected : String) :
      Predicate.exist.check (observed.get? path) expected = .ok () := by rw [h]; rfl
  have hnotExist (expected : String) : Predicate.notExist.check (observed.get? path) expected
      = .error (.keyPresent leaf.plainText) := by rw [h]; rfl
  exact ⟨hexist, hnotExist, fun word => evaluate_bare_ok word rfl (hexist ""),
    fun word => evaluate_bare_error word rfl (hnotExist "")⟩

/-- What is not found is shown to be missing. -/
theorem hidden_of_get? (h : observed.get? path = none) : Hidden observed path := by
  have hexist (expected : String) :
      Predicate.exist.check (observed.get? path) expected = .error .keyAbsent := by rw [h]; rfl
  have hnotExist (expected : String) :
      Predicate.notExist.check (observed.get? path) expected = .ok () := by rw [h]; rfl
  exact ⟨hexist, hnotExist, fun word => evaluate_bare_ok word rfl (hnotExist ""),
    fun word => evaluate_bare_error word rfl (hexist "")⟩

end Seen

/-! ## Paths to values -/

/-- A path leads to a value inside of another, in any letter case. -/
def Json.At (v : Json) (path : String) (w : Json) : Prop :=
  ∃ keys, (keys, w) ∈ v.inside ∧ lowercase path = lowercase (dotted keys)

/-- A path leads to the length of an array inside of a value, in any letter case. -/
def Json.LengthAt (v : Json) (path : String) (length : Nat) : Prop :=
  ∃ keys items, (keys, .array items) ∈ v.inside ∧ items.length = length
    ∧ lowercase path = lowercase (below (dotted keys) lengthKey)

section Paths

variable {v : Json} {path : String}

/-- A leaf is found under its path. -/
theorem get?_leaf (apart : v.KeysApart) {leaf : Json} (place : v.At path leaf)
    (isLeaf : leaf.isLeaf = true) : (ofJson v).get? path = some leaf := by
  obtain ⟨keys, hinside, same⟩ := place
  exact (get?_ofJson apart).2 ⟨keys, Json.mem_slots_some.2 (.inl ⟨hinside, isLeaf⟩), same.symm⟩

/-- The length of an array is found under a path of its own. -/
theorem get?_length (apart : v.KeysApart) {length : Nat} (place : v.LengthAt path length) :
    (ofJson v).get? path = some (.nat length) := by
  obtain ⟨keys, items, hinside, rfl, same⟩ := place
  rw [← dotted_lengthKey] at same
  exact (get?_ofJson apart).2
    ⟨_, Json.mem_slots_some.2 (.inr ⟨keys, items, hinside, rfl, rfl⟩), same.symm⟩

/-- Where a value stands that is no leaf, nothing else is found. -/
theorem get?_container (apart : v.KeysApart) {w : Json} (place : v.At path w)
    (notLeaf : w.isLeaf = false) : (ofJson v).get? path = none := by
  obtain ⟨keys, hinside, same⟩ := place
  refine (get?_ofJson_eq_none apart).2 fun keys' leaf hslot same' => ?_
  -- a leaf that is found here would be kept at the place of this value, where nothing is
  have hslots := slot_eq apart (Json.mem_slots_none hinside notLeaf) hslot
    (same.symm.trans same'.symm)
  cases hslots

/-- Nothing is found under any other path. -/
theorem get?_elsewhere (apart : v.KeysApart) (noValue : ∀ w, ¬ v.At path w)
    (noLength : ∀ length, ¬ v.LengthAt path length) : (ofJson v).get? path = none := by
  refine (get?_ofJson_eq_none apart).2 fun keys leaf hslot same => ?_
  rcases Json.mem_slots_some.1 hslot with ⟨hinside, _⟩ | ⟨above, items, hinside, rfl, rfl⟩
  · exact noValue leaf ⟨keys, hinside, same.symm⟩
  · rw [dotted_lengthKey] at same
    exact noLength items.length ⟨above, items, hinside, rfl, same.symm⟩

end Paths

/-- **What is seen to exist are the leaves and the lengths of arrays.**  Take a value whose keys are
    ASCII without a point and apart in every object.  A path to a leaf is seen to exist, and so is a path
    to the length of an array.  A path to any other value in it, to an array, to an object with fields or
    to null, is seen to be absent, and so is a path that leads to nothing. -/
theorem existence_seen_at_leaves {v : Json} (apart : v.KeysApart) (path : String) :
    (∀ leaf, v.At path leaf → leaf.isLeaf = true → Shown (ofJson v) path leaf.plainText)
      ∧ (∀ length, v.LengthAt path length →
          Shown (ofJson v) path (Json.nat length).plainText)
      ∧ (∀ w, v.At path w → w.isLeaf = false → Hidden (ofJson v) path)
      ∧ ((∀ w, ¬ v.At path w) → (∀ length, ¬ v.LengthAt path length) →
          Hidden (ofJson v) path) :=
  ⟨fun _ place isLeaf => shown_of_get? (get?_leaf apart place isLeaf),
    fun _ place => shown_of_get? (get?_length apart place),
    fun _ place notLeaf => hidden_of_get? (get?_container apart place notLeaf),
    fun noValue noLength => hidden_of_get? (get?_elsewhere apart noValue noLength)⟩

/-- Of a result with errors, each error is seen to exist and so is their number; the array itself is not,
    and neither is what is not there. -/
theorem existence_seen_at_leaves_errors :
    let v := Json.object [("errors", .array [.nat 7])]
    v.KeysApart
      ∧ Shown (ofJson v) "result.Errors.0" "7"
      ∧ Shown (ofJson v) "result.errors.__len__" "1"
      ∧ Hidden (ofJson v) "result.errors"
      ∧ Hidden (ofJson v) "result.error" := by
  intro v
  have hapart : v.KeysApart := by decide +kernel
  have hinside : v.inside = [([], v), (["errors"], .array [.nat 7]), (["errors", "0"], .nat 7)] := rfl
  have hplaces : ∀ place ∈ v.inside, lowercase "result.error" ≠ lowercase (dotted place.1)
      ∧ lowercase "result.error" ≠ lowercase (below (dotted place.1) lengthKey) := by decide +kernel
  refine ⟨hapart, ?_, ?_, ?_, ?_⟩
  · exact (existence_seen_at_leaves hapart "result.Errors.0").1 (.nat 7)
      ⟨["errors", "0"], by simp [hinside], by decide +kernel⟩ rfl
  · exact (existence_seen_at_leaves hapart "result.errors.__len__").2.1 1
      ⟨["errors"], [.nat 7], by simp [hinside], rfl, by decide +kernel⟩
  · exact (existence_seen_at_leaves hapart "result.errors").2.2.1 (.array [.nat 7])
      ⟨["errors"], by simp [hinside], by decide +kernel⟩ rfl
  · refine (existence_seen_at_leaves hapart "result.error").2.2.2 ?_ ?_
    · rintro w ⟨keys, hmem, same⟩
      exact (hplaces (keys, w) hmem).1 same
    · rintro length ⟨keys, items, hmem, _, same⟩
      exact (hplaces (keys, .array items) hmem).2 same

/-- An array of errors is there, but an assertion that it exists fails, and one that there are no errors
    passes. -/
theorem array_seen_absent :
    let v := Json.object [("errors", .array [.nat 7])]
    v.KeysApart ∧ v.At "result.errors" (.array [.nat 7])
      ∧ evaluate (ofJson v) ["result.errors ShouldExist"] none
          = ⟨[], ["Assertion \"result.errors ShouldExist\" failed. result.errors: key does not exist"]⟩
      ∧ evaluate (ofJson v) ["result.errors ShouldNotExist"] none = ⟨[], []⟩ := by
  intro v
  refine ⟨by decide +kernel, ⟨["errors"], ?_, by decide +kernel⟩, by decide +kernel, by decide +kernel⟩
  exact List.mem_cons_of_mem _ List.mem_cons_self

end TestBench
