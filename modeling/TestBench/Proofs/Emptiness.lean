import Mathlib
import TestBench.Proofs.Existence
/-
  Which values are seen to be empty.

  1. The two assertions on emptiness look at what is kept at a path, and fail where nothing is.
  2. A text and an empty object are kept where they stand, so one of the two assertions passes on them
     and it is the right one (`seen_of_get?`).  Of an array its length and its items are kept, and of an
     object with fields only these: where they stand nothing is found, and neither assertion passes.
-/
namespace TestBench

open TestBench.Text Observed

/-! ## Outcomes at a path -/

/-- A predicate without an expected text passes at a path, also as an expression. -/
structure Passes (observed : Observed) (path : String) (p : Predicate) : Prop where
  check : ∀ expected, p.check (observed.get? path) expected = .ok ()
  evaluate : IsWord path.toList → ∀ defaults,
    evaluate observed [Assertion.bare path p] defaults = ⟨[], []⟩

/-- It fails there, and says why. -/
structure Fails (observed : Observed) (path : String) (p : Predicate) (m : Mismatch) : Prop where
  check : ∀ expected, p.check (observed.get? path) expected = .error m
  evaluate : IsWord path.toList → ∀ defaults,
    evaluate observed [Assertion.bare path p] defaults
      = ⟨[], [failureText (Assertion.bare path p) path m]⟩

section Outcomes

variable {observed : Observed} {path : String} {p : Predicate}

/-- Predicates that ask for no text pass with any. -/
theorem passes_of_check (alone : p.takesExpected = false)
    (h : ∀ expected, p.check (observed.get? path) expected = .ok ()) : Passes observed path p :=
  ⟨h, fun word => evaluate_bare_ok word alone (h "")⟩

theorem fails_of_check {m : Mismatch} (alone : p.takesExpected = false)
    (h : ∀ expected, p.check (observed.get? path) expected = .error m) :
    Fails observed path p m :=
  ⟨h, fun word => evaluate_bare_error word alone (h "")⟩

/-- What is found at a path is seen to be empty iff it is. -/
theorem seen_of_get? {leaf : Json} (h : observed.get? path = some leaf) :
    (leaf.HasNothing →
        Passes observed path .beEmpty ∧ Fails observed path .notBeEmpty (.got leaf.plainText))
      ∧ (¬ leaf.HasNothing →
        Fails observed path .beEmpty (.got leaf.plainText) ∧ Passes observed path .notBeEmpty) := by
  rw [← Json.isEmpty_iff_hasNothing]
  have hempty (expected : String) : Predicate.beEmpty.check (observed.get? path) expected
      = if leaf.isEmpty then .ok () else .error (.got leaf.plainText) := by rw [h]; rfl
  have hnotEmpty (expected : String) : Predicate.notBeEmpty.check (observed.get? path) expected
      = if !leaf.isEmpty then .ok () else .error (.got leaf.plainText) := by rw [h]; rfl
  -- the two predicates are each other's denial, so one test decides both
  cases hleaf : leaf.isEmpty <;> simp only [hleaf] at hempty hnotEmpty
  · refine ⟨fun h => absurd h Bool.false_ne_true, fun _ => ⟨?_, ?_⟩⟩
    · exact fails_of_check rfl hempty
    · exact passes_of_check rfl hnotEmpty
  · refine ⟨fun _ => ⟨?_, ?_⟩, fun h => absurd rfl h⟩
    · exact passes_of_check rfl hempty
    · exact fails_of_check rfl hnotEmpty

/-- Where nothing is found, neither emptiness nor the contrary is seen. -/
theorem unseen_of_get? (h : observed.get? path = none) :
    Fails observed path .beEmpty .notFound ∧ Fails observed path .notBeEmpty .notFound :=
  ⟨fails_of_check rfl fun _ => by rw [h]; rfl, fails_of_check rfl fun _ => by rw [h]; rfl⟩

end Outcomes

/-! ## Emptiness -/

/-- **Emptiness is seen at leaves.**  Take a value whose keys are ASCII without a point and apart in every
    object, and a path to some value in it.  If that is a leaf, such as a text or an empty object, the
    assertion that it is empty passes iff it has nothing in it, and the assertion that it is not empty
    passes iff it has.  If it is none, such as an array or an object with fields, neither passes. -/
theorem emptiness_seen_at_leaves {v w : Json} (apart : v.KeysApart) {path : String}
    (place : v.At path w) :
    (w.isLeaf = true →
        (w.HasNothing → Passes (ofJson v) path .beEmpty
          ∧ Fails (ofJson v) path .notBeEmpty (.got w.plainText))
        ∧ (¬ w.HasNothing → Fails (ofJson v) path .beEmpty (.got w.plainText)
          ∧ Passes (ofJson v) path .notBeEmpty))
      ∧ (w.isLeaf = false →
        Fails (ofJson v) path .beEmpty .notFound ∧ Fails (ofJson v) path .notBeEmpty .notFound) :=
  ⟨fun isLeaf => seen_of_get? (get?_leaf apart place isLeaf),
    fun notLeaf => unseen_of_get? (get?_container apart place notLeaf)⟩

/-- Of an answer, an empty body and empty headers are seen to be empty and the name of the server is not;
    of its list of errors, which is empty as well, neither is seen. -/
theorem emptiness_seen_at_leaves_answer :
    let v := Json.object [("body", .text ""), ("errors", .array []), ("headers", .object []),
      ("server", .text "x")]
    v.KeysApart
      ∧ Passes (ofJson v) "result.body" .beEmpty
      ∧ Fails (ofJson v) "result.errors" .beEmpty .notFound
      ∧ Passes (ofJson v) "result.Headers" .beEmpty
      ∧ Passes (ofJson v) "result.server" .notBeEmpty := by
  intro v
  have hapart : v.KeysApart := by decide +kernel
  have hinside : v.inside = [([], v), (["body"], .text ""), (["errors"], .array []),
      (["headers"], .object []), (["server"], .text "x")] := rfl
  have hbody : v.At "result.body" (.text "") := ⟨["body"], by simp [hinside], by decide +kernel⟩
  have herrors : v.At "result.errors" (.array []) :=
    ⟨["errors"], by simp [hinside], by decide +kernel⟩
  have hheaders : v.At "result.Headers" (.object []) :=
    ⟨["headers"], by simp [hinside], by decide +kernel⟩
  have hserver : v.At "result.server" (.text "x") :=
    ⟨["server"], by simp [hinside], by decide +kernel⟩
  refine ⟨hapart, ?_, ?_, ?_, ?_⟩
  · exact (((emptiness_seen_at_leaves hapart hbody).1 rfl).1 (by simp [Json.HasNothing])).1
  · exact ((emptiness_seen_at_leaves hapart herrors).2 rfl).1
  · exact (((emptiness_seen_at_leaves hapart hheaders).1 rfl).1 (by simp [Json.HasNothing])).1
  · exact (((emptiness_seen_at_leaves hapart hserver).1 rfl).2 (by simp [Json.HasNothing])).2

/-- An array without items is not seen to be empty, and one with items is not seen to hold any. -/
theorem array_seen_neither_way :
    let v := Json.object [("errors", .array []), ("rows", .array [.nat 7])]
    v.KeysApart ∧ v.At "result.errors" (.array []) ∧ v.At "result.rows" (.array [.nat 7])
      ∧ evaluate (ofJson v) ["result.errors ShouldBeEmpty", "result.rows ShouldNotBeEmpty"] none
          = ⟨[], [
            "Assertion \"result.errors ShouldBeEmpty\" failed. result.errors: key not found in result",
            "Assertion \"result.rows ShouldNotBeEmpty\" failed. result.rows: key not found in result"]⟩
      := by
  intro v
  have hinside : v.inside = [([], v), (["errors"], .array []), (["rows"], .array [.nat 7]),
      (["rows", "0"], .nat 7)] := rfl
  refine ⟨by decide +kernel, ⟨["errors"], ?_, by decide +kernel⟩, ⟨["rows"], ?_, by decide +kernel⟩,
    by decide +kernel⟩
  · simp [hinside]
  · simp [hinside]

end TestBench
